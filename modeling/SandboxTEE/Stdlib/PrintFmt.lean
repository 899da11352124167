import SandboxTEE.Stdlib.Scan

/-! # Formatted output into a buffer (`printfmt.c`)

Characters go to a sink that takes none once it has as many as the buffer has bytes, and most of the
conversions give up then.  The NUL is stored afterwards, if there is a byte left for it.  `%p` falls
through into `%x`, which takes an argument of its own.
-/

namespace SandboxTEE.Stdlib

open SandboxTEE.Lib (bytesAt store length_bytesAt store_of_outside store_of_inside)

/-- An argument as it is passed; an `int` is the lower half of it. -/
abbrev Arg := BitVec 64

/-! ## The sink -/

structure Sprintbuf where
  cnt : Nat
  max : Int
  buf : Memory

namespace Sprintbuf

/-- `none` is the result -1. -/
def sprintputch (b : Sprintbuf) (ch : Byte) : Option Sprintbuf :=
  if b.max ≤ b.cnt then none
  else some { b with cnt := b.cnt + 1, buf := store b.buf b.cnt [ch] }

/-- One character after the other, up to one that is not taken. -/
def putAll (b : Sprintbuf) : List Byte → Bool × Sprintbuf
  | [] => (true, b)
  | ch :: chars =>
    match b.sprintputch ch with
    | none => (false, b)
    | some b => b.putAll chars

/-- A character whose result is not looked at. -/
def putUnchecked (b : Sprintbuf) (ch : Byte) : Sprintbuf := (b.sprintputch ch).getD b

end Sprintbuf

/-! ## What the conversions put -/

/-- `"0123456789abcdef"[n]` -/
def hexDigit (n : Nat) : Byte := UInt8.ofNat (if n < 10 then 48 + n else 87 + n)

/-- `base` is 8, 10 or 16. -/
def printnum (num base : Nat) (width : Int) (padc : Byte) : List Byte :=
  if base ≤ num ∧ 2 ≤ base then
    printnum (num / base) base (width - 1) padc ++ [hexDigit (num % base)]
  else List.replicate (width - 1).toNat padc ++ [hexDigit (num % base)]
termination_by num
decreasing_by exact Nat.div_lt_self (by omega) (by omega)

def getuint (a : Arg) (lflag : Nat) : BitVec 64 :=
  if 2 ≤ lflag then a else if lflag ≠ 0 then a else (a.setWidth 32).setWidth 64

def getint (a : Arg) (lflag : Nat) : BitVec 64 :=
  if 2 ≤ lflag then a else if lflag ≠ 0 then a else (a.setWidth 32).signExtend 64

/-- What stands between the `%` and its conversion. -/
structure Flags where
  padc : Byte
  width : Int
  precision : Int
  lflag : Nat
  altflag : Bool

def Flags.start : Flags := ⟨32, -1, -1, 0, false⟩

/-- An `int` that a `size_t` or a product went into. -/
def int32 (x : Int) : Int := (BitVec.ofInt 32 x).toInt

/-- Characters that cannot be printed are question marks with `#`; a `char` is signed. -/
def shown (altflag : Bool) (ch : Byte) : Byte :=
  if altflag ∧ (ch.toNat < 32 ∨ 126 < ch.toNat) then 63 else ch

/-- `case 's'` -/
def stringText (s : Flags) (p : List Byte) : List Byte :=
  let part := if s.precision < 0 then p else p.take s.precision.toNat
  let padded := 0 < s.width ∧ s.padc ≠ 45
  let width := if padded then int32 (s.width - part.length) else s.width
  let before := if padded then List.replicate width.toNat s.padc else []
  let width := if padded then min width 0 else s.width
  before ++ part.map (shown s.altflag) ++ List.replicate (int32 (width - part.length)).toNat 32

/-- `case 'd'` -/
def decimalText (s : Flags) (a : Arg) : List Byte :=
  let num := getint a s.lflag
  if num.toInt < 0 then 45 :: printnum (-num).toNat 10 s.width s.padc
  else printnum num.toNat 10 s.width s.padc

def unsignedText (base : Nat) (s : Flags) (a : Arg) : List Byte :=
  printnum (getuint a s.lflag).toNat base s.width s.padc

/-- The conversions that take one argument.  `strings` is what a pointer points to. -/
def convert (strings : Arg → List Byte) (s : Flags) (ch : Byte) : Option (Arg → List Byte) :=
  if ch = 99 then some fun a => [UInt8.ofNat a.toNat]
  else if ch = 115 then some fun a =>
    stringText s (if a = 0 then [40, 110, 117, 108, 108, 41] else strings a)
  else if ch = 100 then some (decimalText s)
  else if ch = 117 then some (unsignedText 10 s)
  else if ch = 111 then some (unsignedText 8 s)
  else if ch = 120 then some (unsignedText 16 s)
  else none

/-! ## The format -/

/-- `process_precision` -/
def Flags.processPrecision (s : Flags) (precision : Int) : Flags :=
  if s.width < 0 then { s with width := precision, precision := -1 } else { s with precision }

/-- The digits of a width, the first of which is `ch`. -/
def readNumber (precision : BitVec 32) (ch : Byte) : List Byte → BitVec 32 × List Byte
  | [] => (precision * 10 + BitVec.ofNat 32 (ch.toNat - 48), [])
  | next :: fmt =>
    let precision := precision * 10 + BitVec.ofNat 32 (ch.toNat - 48)
    if isDigit next then readNumber precision next fmt else (precision, next :: fmt)

theorem readNumber_length (precision : BitVec 32) (ch : Byte) (fmt : List Byte) :
    (readNumber precision ch fmt).2.length ≤ fmt.length := by
  induction fmt generalizing precision ch with
  | nil => exact Nat.le_refl 0
  | cons next fmt ih =>
    rw [readNumber]
    split
    · exact Nat.le_succ_of_le (ih _ _)
    · exact Nat.le_refl _

/-- The switch when it comes to a character that is none of the flags, with the rest of the format, the
    arguments that are left, and the number of `*` that took one. -/
structure Switched where
  flags : Flags
  ch : Byte
  fmt : List Byte
  args : List Arg
  stars : Nat

/-- From the label `reswitch` on; `none` when an argument is missing. -/
def reswitch (s : Flags) (args : List Arg) : List Byte → Option Switched
  | [] => some ⟨s, 0, [], args, 0⟩
  | ch :: fmt =>
    if ch = 45 then reswitch { s with padc := 32 } args fmt
    else if ch = 48 then reswitch { s with padc := 48 } args fmt
    else if isDigit ch then
      reswitch (s.processPrecision (readNumber 0 ch fmt).1.toInt) args (readNumber 0 ch fmt).2
    else if ch = 42 then
      match args.head? with
      | none => none
      | some a =>
        (reswitch (s.processPrecision (a.setWidth 32).toInt) args.tail fmt).map fun sw =>
          { sw with stars := sw.stars + 1 }
    else if ch = 46 then
      reswitch { s with width := if s.width < 0 then 0 else s.width } args fmt
    else if ch = 35 then reswitch { s with altflag := true } args fmt
    else if ch = 108 then reswitch { s with lflag := s.lflag + 1 } args fmt
    else some ⟨s, ch, fmt, args, 0⟩
termination_by fmt => fmt.length
decreasing_by
  all_goals simp only [List.length_cons]
  all_goals first
    | omega
    | exact Nat.lt_succ_of_le (readNumber_length _ _ _)

theorem reswitch_length {s : Flags} {args : List Arg} {fmt : List Byte} {sw : Switched}
    (found : reswitch s args fmt = some sw) : sw.fmt.length ≤ fmt.length := by
  induction s, args, fmt using reswitch.induct generalizing sw with
  | case1 s args =>
    rw [reswitch] at found
    cases found
    exact Nat.le_refl 0
  | case2 s args fmt ih =>
    rw [reswitch, if_pos rfl] at found
    exact Nat.le_succ_of_le (ih found)
  | case3 s args fmt _ ih =>
    rw [reswitch, if_neg (by decide), if_pos rfl] at found
    exact Nat.le_succ_of_le (ih found)
  | case4 s args ch fmt minus zero digit ih =>
    rw [reswitch, if_neg minus, if_neg zero, if_pos digit] at found
    exact Nat.le_succ_of_le ((ih found).trans (readNumber_length _ _ _))
  | case5 s args fmt missing _ _ _ =>
    rw [reswitch, if_neg (by decide), if_neg (by decide), if_neg (by decide), if_pos rfl, missing]
      at found
    cases found
  | case6 s args fmt a there _ _ _ ih =>
    rw [reswitch, if_neg (by decide), if_neg (by decide), if_neg (by decide), if_pos rfl, there]
      at found
    obtain ⟨sw', found', same⟩ := Option.map_eq_some_iff.mp found
    cases same
    have later := ih found'
    exact Nat.le_succ_of_le later
  | case7 s args fmt _ _ _ _ ih =>
    rw [reswitch, if_neg (by decide), if_neg (by decide), if_neg (by decide), if_neg (by decide),
      if_pos rfl] at found
    exact Nat.le_succ_of_le (ih found)
  | case8 s args fmt _ _ _ _ _ ih =>
    rw [reswitch, if_neg (by decide), if_neg (by decide), if_neg (by decide), if_neg (by decide),
      if_neg (by decide), if_pos rfl] at found
    exact Nat.le_succ_of_le (ih found)
  | case9 s args fmt _ _ _ _ _ _ ih =>
    rw [reswitch, if_neg (by decide), if_neg (by decide), if_neg (by decide), if_neg (by decide),
      if_neg (by decide), if_neg (by decide), if_pos rfl] at found
    exact Nat.le_succ_of_le (ih found)
  | case10 s args ch fmt minus zero digit star dot alt long =>
    rw [reswitch, if_neg minus, if_neg zero, if_neg digit, if_neg star, if_neg dot, if_neg alt,
      if_neg long] at found
    cases found
    exact Nat.le_succ _

/-- What a call has done: the sink, the arguments that are left, and for every `*` and every conversion
    that took arguments how many it took. -/
structure Formatted where
  sink : Sprintbuf
  left : List Arg
  taken : List (Byte × Nat)

def Formatted.takes (front : List (Byte × Nat)) (r : Formatted) : Formatted :=
  { r with taken := front ++ r.taken }

variable (strings : Arg → List Byte)

/-- `none` when an argument is missing. -/
def vfprintfmt (b : Sprintbuf) (args : List Arg) : List Byte → Option Formatted
  | [] => some ⟨b, args, []⟩
  | ch :: fmt =>
    if ch = 0 then some ⟨b, args, []⟩
    else if ch ≠ 37 then
      match b.sprintputch ch with
      | none => some ⟨b, args, []⟩
      | some b => vfprintfmt b args fmt
    else
      match _found : reswitch .start args fmt with
      | none => none
      | some sw =>
        let done : Option Formatted :=
          match convert strings sw.flags sw.ch, sw.args with
          | some _, [] => none
          | some text, a :: args =>
            match b.putAll (text a) with
            | (false, b) => some ⟨b, args, [(sw.ch, 1)]⟩
            | (true, b) => (vfprintfmt b args sw.fmt).map (·.takes [(sw.ch, 1)])
          | none, args =>
            if sw.ch = 112 then
              match b.putAll [48, 120] with
              | (false, b) => some ⟨b, args, []⟩
              | (true, b) =>
                match args with
                -- the pointer is read, and then `case 'x'` reads the next one
                | _ :: a :: args =>
                  match b.putAll (unsignedText 16 sw.flags a) with
                  | (false, b) => some ⟨b, args, [(112, 2)]⟩
                  | (true, b) => (vfprintfmt b args sw.fmt).map (·.takes [(112, 2)])
                | _ => none
            else if sw.ch = 94 then
              match b.sprintputch 27 with
              | none => some ⟨b, args, []⟩
              | some b => vfprintfmt b args sw.fmt
            else if sw.ch = 37 then vfprintfmt (b.putUnchecked 37) args sw.fmt
            -- not recognised: the format is read on behind the `%`
            else vfprintfmt (b.putUnchecked 37) args fmt
        done.map (·.takes (List.replicate sw.stars (42, 1)))
termination_by fmt => fmt.length
decreasing_by
  all_goals simp only [List.length_cons]
  all_goals first
    | omega
    | exact Nat.lt_succ_of_le (reswitch_length _found)

/-! ## The whole text -/

/-- What a character, a conversion (with its letter) or an escape puts. -/
structure Piece where
  letter : Byte
  text : List Byte

/-- The same without an end to the buffer, and with one argument for each conversion. -/
def pieces (args : List Arg) : List Byte → Option (List Piece × List Arg)
  | [] => some ([], args)
  | ch :: fmt =>
    let cons (piece : Piece) (rest : Option (List Piece × List Arg)) :=
      rest.map fun (ps, left) => (piece :: ps, left)
    if ch = 0 then some ([], args)
    else if ch ≠ 37 then cons ⟨0, [ch]⟩ (pieces args fmt)
    else
      match _found : reswitch .start args fmt with
      | none => none
      | some sw =>
        match convert strings sw.flags sw.ch, sw.args with
        | some _, [] => none
        | some text, a :: args => cons ⟨sw.ch, text a⟩ (pieces args sw.fmt)
        | none, args =>
          if sw.ch = 112 then
            match args with
            | [] => none
            | a :: args =>
              cons ⟨112, [48, 120] ++ printnum a.toNat 16 sw.flags.width sw.flags.padc⟩
                (pieces args sw.fmt)
          else if sw.ch = 94 then cons ⟨0, [27]⟩ (pieces args sw.fmt)
          else if sw.ch = 37 then cons ⟨0, [37]⟩ (pieces args sw.fmt)
          else cons ⟨0, [37]⟩ (pieces args fmt)
termination_by fmt => fmt.length
decreasing_by
  all_goals simp only [List.length_cons]
  all_goals first
    | omega
    | exact Nat.lt_succ_of_le (reswitch_length _found)

/-- The text of the pieces. -/
def texts (ps : List Piece) : List Byte := ps.flatMap Piece.text

/-! ## The functions -/

/-- `buf` is not NULL, and `max` is the `int` that `n` becomes. -/
def bounded (buf : Memory) (max : Int) (fmt : List Byte) (args : List Arg) : Option Formatted :=
  (vfprintfmt strings ⟨0, max, buf⟩ args fmt).map fun r =>
    if (r.sink.cnt : Int) < max then
      { r with sink := { r.sink with buf := store r.sink.buf r.sink.cnt [0] } }
    else r

def vsprintf (buf : Memory) (n : BitVec 32) (fmt : List Byte) (args : List Arg) :
    Option Formatted :=
  if n.toInt < 1 then some ⟨⟨0, n.toInt, buf⟩, args, []⟩ else bounded strings buf n.toInt fmt args

def vsnprintf (buf : Memory) (n : BitVec 64) (fmt : List Byte) (args : List Arg) :
    Option Formatted :=
  if n.toNat < 1 then some ⟨⟨0, (n.setWidth 32).toInt, buf⟩, args, []⟩
  else bounded strings buf (n.setWidth 32).toInt fmt args

def snprintf (buf : Memory) (n : BitVec 32) (fmt : List Byte) (args : List Arg) :
    Option Formatted :=
  vsprintf strings buf n fmt args

/-! ## What is to hold -/

/-- Nothing is written behind the buffer; there is a NUL in it with a part of the text in front of it, the
    whole of it when it fits; and what took arguments took one each. -/
structure Sound (size : Nat) (buf : Memory) (text : List Byte) (r : Formatted) : Prop where
  inside : ∀ i, size ≤ i → r.sink.buf i = buf i
  terminated : ∃ k < size, r.sink.buf k = 0 ∧ bytesAt r.sink.buf 0 k <+: text ∧
    (text.length < size → bytesAt r.sink.buf 0 k = text)
  each : ∀ took ∈ r.taken, took.2 = 1

/-- No `%p` is come to with room for its `0x`. -/
def Clear (room : Nat) (ps : List Piece) : Prop :=
  ∀ front p back, ps = front ++ p :: back → p.letter = 112 → room < (texts front).length + 2

/-- The text is shorter than the buffer as the sink knows it, or longer than the buffer with a NUL of its
    own; and no `%p` is in the way. -/
structure Fits (size room : Nat) (ps : List Piece) : Prop where
  terminated : (texts ps).length < room ∨ size ≤ (texts ps).length ∧ 0 ∈ (texts ps).take room
  clear : Clear room ps

/-! ## The sink -/

namespace Sprintbuf

variable {b : Sprintbuf} {chars chars' : List Byte}

/-- How many characters it still takes. -/
def room (b : Sprintbuf) : Nat := (b.max - b.cnt).toNat

def write (b : Sprintbuf) (chars : List Byte) : Sprintbuf :=
  { b with cnt := b.cnt + chars.length, buf := store b.buf b.cnt chars }

theorem write_nil : b.write [] = b := by
  rw [write, SandboxTEE.Lib.store_nil]
  rfl

theorem write_write : (b.write chars).write chars' = b.write (chars ++ chars') := by
  simp only [write, SandboxTEE.Lib.store_append, List.length_append, Nat.add_assoc]

theorem room_write : (b.write chars).room = b.room - chars.length := by
  simp only [room, write]
  omega

theorem sprintputch_eq (ch : Byte) :
    b.sprintputch ch = if b.room = 0 then none else some (b.write [ch]) := by
  rw [sprintputch]
  by_cases full : b.max ≤ b.cnt
  · rw [if_pos full, if_pos (by rw [room]; omega)]
  · rw [if_neg full, if_neg (by rw [room]; omega)]
    rfl

theorem putAll_eq (chars : List Byte) :
    b.putAll chars = (decide (chars.length ≤ b.room), b.write (chars.take b.room)) := by
  induction chars generalizing b with
  | nil => simp [putAll, write_nil]
  | cons ch chars ih =>
    rw [putAll, sprintputch_eq]
    by_cases full : b.room = 0
    · rw [if_pos full]
      simp [full, write_nil]
    · obtain ⟨n, more⟩ := Nat.exists_eq_succ_of_ne_zero full
      rw [if_neg full]
      simp only
      rw [ih, room_write, write_write, more]
      simp

theorem putUnchecked_eq (ch : Byte) : b.putUnchecked ch = b.write ([ch].take b.room) := by
  rw [putUnchecked, sprintputch_eq]
  by_cases full : b.room = 0
  · simp [full, write_nil]
  · rw [if_neg full, List.take_of_length_le (by simp; omega)]
    rfl

end Sprintbuf

/-! ## One step of the format -/

section Steps

variable {strings} {b : Sprintbuf} {args args' : List Arg} {fmt : List Byte} {ch : Byte}
  {sw : Switched}

theorem vfprintfmt_literal (nul : ch ≠ 0) (percent : ch ≠ 37) :
    vfprintfmt strings b args (ch :: fmt) = if b.room = 0 then some ⟨b, args, []⟩
      else vfprintfmt strings (b.write [ch]) args fmt := by
  rw [vfprintfmt, if_neg nul, if_pos percent, Sprintbuf.sprintputch_eq]
  split <;> simp_all

/-- What a conversion does, without the `*` in front of it. -/
def converted (strings : Arg → List Byte) (b : Sprintbuf) (fmt : List Byte) (sw : Switched) :
    Option Formatted :=
  match convert strings sw.flags sw.ch, sw.args with
  | some _, [] => none
  | some text, a :: args =>
    if (text a).length ≤ b.room then
      (vfprintfmt strings (b.write (text a)) args sw.fmt).map (·.takes [(sw.ch, 1)])
    else some ⟨b.write ((text a).take b.room), args, [(sw.ch, 1)]⟩
  | none, args =>
    if sw.ch = 112 then
      if 2 ≤ b.room then
        match args with
        | _ :: a :: args =>
          let text := unsignedText 16 sw.flags a
          if text.length ≤ b.room - 2 then
            (vfprintfmt strings (b.write ([48, 120] ++ text)) args sw.fmt).map (·.takes [(112, 2)])
          else some ⟨b.write ([48, 120] ++ text.take (b.room - 2)), args, [(112, 2)]⟩
        | _ => none
      else some ⟨b.write ([48, 120].take b.room), args, []⟩
    else if sw.ch = 94 then
      if b.room = 0 then some ⟨b, args, []⟩ else vfprintfmt strings (b.write [27]) args sw.fmt
    else if sw.ch = 37 then vfprintfmt strings (b.write ([37].take b.room)) args sw.fmt
    else vfprintfmt strings (b.write ([37].take b.room)) args fmt

theorem vfprintfmt_directive (found : reswitch .start args fmt = some sw) :
    vfprintfmt strings b args (37 :: fmt) =
      (converted strings b fmt sw).map (·.takes (List.replicate sw.stars (42, 1))) := by
  rw [vfprintfmt, if_neg (by decide), if_neg (by decide)]
  split
  · next missing => cases found.symm.trans missing
  · next sw' found' =>
    cases found.symm.trans found'
    rw [converted]
    simp only [Sprintbuf.putAll_eq, Sprintbuf.sprintputch_eq, Sprintbuf.putUnchecked_eq]
    cases convert strings sw.flags sw.ch with
    | some text =>
      cases sw.args with
      | nil => rfl
      | cons a args =>
        by_cases fits : (text a).length ≤ b.room
        · simp [fits, List.take_of_length_le fits]
        · simp [fits]
    | none =>
      by_cases pointer : sw.ch = 112
      · simp only [pointer, if_true]
        by_cases two : 2 ≤ b.room
        · have both : ([48, 120] : List Byte).take b.room = [48, 120] := List.take_of_length_le two
          simp only [List.length_cons, List.length_nil, Nat.zero_add, Nat.reduceAdd, two, decide_true,
            if_true, both, Sprintbuf.room_write, Sprintbuf.write_write]
          match sw.args with
          | [] => rfl
          | [_] => rfl
          | _ :: a :: args =>
            by_cases fits : (unsignedText 16 sw.flags a).length ≤ b.room - 2
            · simp [fits, List.take_of_length_le fits]
            · simp [fits]
        · simp [two]
      · simp only [pointer, if_false]
        by_cases full : b.room = 0
        · simp [full]
        · simp [full]

theorem pieces_literal (nul : ch ≠ 0) (percent : ch ≠ 37) : pieces strings args (ch :: fmt) =
    (pieces strings args fmt).map fun r => (⟨0, [ch]⟩ :: r.1, r.2) := by
  rw [pieces, if_neg nul, if_pos percent]

/-- What is put behind a `%`, and the arguments and the format that are left then. -/
inductive Directive (strings : Arg → List Byte) (fmt : List Byte) (sw : Switched) :
    Piece → List Arg → List Byte → Prop
  | takes {text : Arg → List Byte} {a : Arg} {args : List Arg}
      (conv : convert strings sw.flags sw.ch = some text) (there : sw.args = a :: args) :
      Directive strings fmt sw ⟨sw.ch, text a⟩ args sw.fmt
  | pointer {a : Arg} {args : List Arg} (other : convert strings sw.flags sw.ch = none)
      (ch : sw.ch = 112) (there : sw.args = a :: args) :
      Directive strings fmt sw
        ⟨112, [48, 120] ++ printnum a.toNat 16 sw.flags.width sw.flags.padc⟩ args sw.fmt
  | escape (other : convert strings sw.flags sw.ch = none) (ch : sw.ch = 94) :
      Directive strings fmt sw ⟨0, [27]⟩ sw.args sw.fmt
  | percent (other : convert strings sw.flags sw.ch = none) (ch : sw.ch = 37) :
      Directive strings fmt sw ⟨0, [37]⟩ sw.args sw.fmt
  | unknown (other : convert strings sw.flags sw.ch = none) (pointer : sw.ch ≠ 112)
      (escape : sw.ch ≠ 94) (percent : sw.ch ≠ 37) :
      Directive strings fmt sw ⟨0, [37]⟩ sw.args fmt

theorem pieces_directive {ps : List Piece} {left : List Arg}
    (run : pieces strings args (37 :: fmt) = some (ps, left)) :
    ∃ sw piece args' fmt' ps', reswitch .start args fmt = some sw ∧
      Directive strings fmt sw piece args' fmt' ∧ ps = piece :: ps' ∧
        pieces strings args' fmt' = some (ps', left) := by
  rw [pieces, if_neg (by decide), if_neg (by decide)] at run
  split at run
  · cases run
  · next sw found =>
    have one {piece : Piece} {args' : List Arg} {fmt' : List Byte}
        (directive : Directive strings fmt sw piece args' fmt')
        (mapped : (pieces strings args' fmt').map (fun r => (piece :: r.1, r.2)) = some (ps, left)) :
        ∃ sw piece args' fmt' ps', reswitch .start args fmt = some sw ∧
          Directive strings fmt sw piece args' fmt' ∧ ps = piece :: ps' ∧
            pieces strings args' fmt' = some (ps', left) := by
      obtain ⟨⟨ps', left'⟩, inner, same⟩ := Option.map_eq_some_iff.mp mapped
      cases same
      exact ⟨sw, piece, args', fmt', ps', found, directive, rfl, inner⟩
    cases conv : convert strings sw.flags sw.ch with
    | some text =>
      rw [conv] at run
      cases there : sw.args with
      | nil =>
        rw [there] at run
        cases run
      | cons a args' =>
        rw [there] at run
        exact one (.takes conv there) run
    | none =>
      rw [conv] at run
      by_cases pointer : sw.ch = 112
      · simp only [pointer, if_true] at run
        cases there : sw.args with
        | nil =>
          rw [there] at run
          cases run
        | cons a args' =>
          rw [there] at run
          exact one (.pointer conv pointer there) run
      · simp only [pointer, if_false] at run
        by_cases escape : sw.ch = 94
        · rw [if_pos escape] at run
          exact one (.escape conv escape) run
        · rw [if_neg escape] at run
          by_cases percent : sw.ch = 37
          · rw [if_pos percent] at run
            exact one (.percent conv percent) run
          · rw [if_neg percent] at run
            exact one (.unknown conv pointer escape percent) run

theorem Directive.length {piece : Piece} {fmt' : List Byte}
    (directive : Directive strings fmt sw piece args' fmt')
    (found : reswitch .start args fmt = some sw) : fmt'.length ≤ fmt.length := by
  have shorter := reswitch_length found
  cases directive with
  | takes | pointer | escape | percent => exact shorter
  | unknown => exact Nat.le_refl _

end Steps

/-! ## Runs that come to no pointer -/

section Runs

variable {strings} {b : Sprintbuf} {text chars : List Byte} {run : Option Formatted}
  {front taken : List (Byte × Nat)}

def Single (taken : List (Byte × Nat)) : Prop := ∀ took ∈ taken, took.2 = 1

/-- The run puts as much of the text as there is room for, and takes one argument at a time. -/
def Ends (b : Sprintbuf) (text : List Byte) (run : Option Formatted) : Prop :=
  ∃ left taken, run = some ⟨b.write (text.take b.room), left, taken⟩ ∧ Single taken

theorem Single.append (single : Single front) (single' : Single taken) : Single (front ++ taken) := by
  intro took member
  cases List.mem_append.mp member with
  | inl before => exact single took before
  | inr behind => exact single' took behind

theorem single_one (ch : Byte) : Single [(ch, 1)] := by
  intro took member
  rw [List.mem_singleton.mp member]

theorem single_stars (n : Nat) : Single (List.replicate n (42, 1)) := by
  intro took member
  rw [List.eq_of_mem_replicate member]

theorem Ends.takes (ends : Ends b text run) (single : Single front) :
    Ends b text (run.map (·.takes front)) := by
  obtain ⟨left, taken, rfl, single'⟩ := ends
  exact ⟨left, front ++ taken, rfl, single.append single'⟩

theorem Ends.behind (fits : chars.length ≤ b.room) (ends : Ends (b.write chars) text run) :
    Ends b (chars ++ text) run := by
  obtain ⟨left, taken, rfl, single⟩ := ends
  refine ⟨left, taken, ?_, single⟩
  rw [Sprintbuf.room_write, Sprintbuf.write_write, List.take_append, List.take_of_length_le fits]

theorem Ends.full {left : List Arg} (long : b.room < chars.length) (single : Single taken) :
    Ends b (chars ++ text) (some ⟨b.write (chars.take b.room), left, taken⟩) := by
  refine ⟨left, taken, ?_, single⟩
  rw [List.take_append_of_le_length long.le]

theorem Ends.unchecked {ch : Byte} (ends : Ends (b.write ([ch].take b.room)) text run) :
    Ends b (ch :: text) run := by
  by_cases full : b.room = 0
  · rw [full, List.take_zero, Sprintbuf.write_nil] at ends
    obtain ⟨left, taken, rfl, single⟩ := ends
    refine ⟨left, taken, ?_, single⟩
    rw [full, List.take_zero, List.take_zero]
  · rw [List.take_of_length_le (by simp; omega)] at ends
    exact Ends.behind (by simp; omega) ends

theorem Ends.nothing (b : Sprintbuf) (args : List Arg) : Ends b [] (some ⟨b, args, []⟩) := by
  refine ⟨args, [], ?_, fun took member => by cases member⟩
  rw [List.take_nil, Sprintbuf.write_nil]

variable {p : Piece} {ps : List Piece} {room : Nat}

theorem texts_cons : texts (p :: ps) = p.text ++ texts ps := List.flatMap_cons

theorem Clear.tail (clear : Clear room (p :: ps)) (fits : p.text.length ≤ room) :
    Clear (room - p.text.length) ps := by
  intro front q back split_ pointer
  have far := clear (p :: front) q back (by rw [split_]; rfl) pointer
  rw [texts_cons, List.length_append] at far
  omega

/-- No conversion is a pointer but `%p`. -/
theorem convert_ne {s : Flags} {ch : Byte} {text : Arg → List Byte}
    (conv : convert strings s ch = some text) : ch ≠ 112 := by
  rintro rfl
  cases conv

theorem Clear.zero (ps : List Piece) : Clear 0 ps := by
  intro front q back _ _
  omega

theorem Clear.unchecked {ch : Byte} (clear : Clear b.room (⟨0, [ch]⟩ :: ps)) :
    Clear (b.write ([ch].take b.room)).room ps := by
  rw [Sprintbuf.room_write]
  by_cases full : b.room = 0
  · rw [full, Nat.zero_sub]
    exact Clear.zero ps
  · rw [List.take_of_length_le (by simp; omega)]
    exact clear.tail (Nat.pos_of_ne_zero full)

theorem converted_ends {args' : List Arg} {fmt fmt' : List Byte} {sw : Switched}
    (directive : Directive strings fmt sw p args' fmt') (clear : Clear b.room (p :: ps))
    (later : ∀ b' : Sprintbuf, Clear b'.room ps →
      Ends b' (texts ps) (vfprintfmt strings b' args' fmt')) :
    Ends b (texts (p :: ps)) (converted strings b fmt sw) := by
  rw [texts_cons]
  cases directive with
  | @takes text a _ conv there =>
    simp only [converted, conv, there]
    split
    · next fits =>
      apply Ends.takes _ (single_one _)
      apply Ends.behind fits
      apply later
      rw [Sprintbuf.room_write]
      exact clear.tail fits
    · next long => exact Ends.full (Nat.not_le.mp long) (single_one _)
  | @pointer a _ other ch there =>
    have short := clear [] _ ps rfl rfl
    rw [show (texts []).length + 2 = 2 from rfl] at short
    simp only [converted, other, if_pos ch, if_neg (Nat.not_le.mpr short)]
    rw [List.append_assoc]
    exact Ends.full short fun took member => by cases member
  | escape other ch =>
    simp only [converted, other]
    rw [if_neg (by rw [ch]; decide), if_pos ch]
    split
    · next full =>
      have ends := @Ends.full b (texts ps) [27] [] sw.args (by rw [full]; exact Nat.one_pos)
        (fun took member => by cases member)
      rwa [full, List.take_zero, Sprintbuf.write_nil] at ends
    · next more =>
      have fits : [(27 : Byte)].length ≤ b.room := Nat.pos_of_ne_zero more
      apply Ends.behind fits
      apply later
      rw [Sprintbuf.room_write]
      exact clear.tail fits
  | percent other ch =>
    simp only [converted, other]
    rw [if_neg (by rw [ch]; decide), if_neg (by rw [ch]; decide), if_pos ch]
    exact Ends.unchecked (later _ clear.unchecked)
  | unknown other pointer escape percent =>
    simp only [converted, other, if_neg pointer, if_neg escape, if_neg percent]
    exact Ends.unchecked (later _ clear.unchecked)

theorem vfprintfmt_ends {args left : List Arg} {fmt : List Byte}
    (whole : pieces strings args fmt = some (ps, left)) (clear : Clear b.room ps) :
    Ends b (texts ps) (vfprintfmt strings b args fmt) := by
  induction len : fmt.length using Nat.strong_induction_on generalizing fmt b args ps left with
  | h n ih =>
    cases fmt with
    | nil =>
      rw [pieces] at whole
      cases whole
      rw [vfprintfmt]
      exact Ends.nothing b args
    | cons ch fmt =>
      rw [List.length_cons] at len
      by_cases nul : ch = 0
      · rw [pieces, if_pos nul] at whole
        cases whole
        rw [vfprintfmt, if_pos nul]
        exact Ends.nothing b args
      · by_cases percent : ch = 37
        · subst percent
          obtain ⟨sw, p, args', fmt', ps', found, directive, rfl, inner⟩ := pieces_directive whole
          have shorter := directive.length found
          rw [vfprintfmt_directive found]
          apply Ends.takes _ (single_stars _)
          apply converted_ends directive clear
          intro b' clear'
          exact ih fmt'.length (by omega) inner clear' rfl
        · rw [pieces_literal nul percent] at whole
          obtain ⟨⟨ps', left'⟩, inner, same⟩ := Option.map_eq_some_iff.mp whole
          cases same
          rw [vfprintfmt_literal nul percent, texts_cons]
          split
          · next full =>
            have ends := @Ends.full b (texts ps') [ch] [] args (by rw [full]; exact Nat.one_pos)
              (fun took member => by cases member)
            rwa [full, List.take_zero, Sprintbuf.write_nil] at ends
          · next more =>
            have fits : [ch].length ≤ b.room := Nat.pos_of_ne_zero more
            apply Ends.behind fits
            apply ih fmt.length (by omega) inner _ rfl
            rw [Sprintbuf.room_write]
            exact clear.tail fits

theorem clear_nil : Clear room [] := by
  intro front p back split_
  cases front <;> cases split_

theorem clear_cons : Clear room (p :: ps) ↔
    (p.letter = 112 → room < 2) ∧ (p.text.length ≤ room → Clear (room - p.text.length) ps) := by
  constructor
  · intro clear
    exact ⟨clear [] p ps rfl, clear.tail⟩
  · intro ⟨first, others⟩ front q back split_ pointer
    cases front with
    | nil =>
      cases split_
      exact first pointer
    | cons q' front =>
      cases split_
      rw [texts_cons, List.length_append]
      by_cases fits : p.text.length ≤ room
      · have far := others fits front q back rfl pointer
        omega
      · omega

end Runs

/-! ## Runs that come to a pointer -/

section Runs

variable {strings} {b : Sprintbuf} {run : Option Formatted} {front taken : List (Byte × Nat)}
  {p : Piece} {ps : List Piece} {args args' left : List Arg} {fmt fmt' : List Byte} {sw : Switched}

/-- There is no run, for want of an argument, or something in it takes more than one. -/
def Doubles (run : Option Formatted) : Prop := ∀ r, run = some r → ¬ Single r.taken

theorem Doubles.takes (doubles : Doubles run) (front : List (Byte × Nat)) :
    Doubles (run.map (·.takes front)) := by
  intro r some_ single
  obtain ⟨r', there, rfl⟩ := Option.map_eq_some_iff.mp some_
  apply doubles r' there
  intro took member
  exact single took (List.mem_append_right front member)

theorem doubles_none : Doubles none := by
  intro r there
  cases there

theorem not_single_two (taken : List (Byte × Nat)) : ¬ Single ((112, 2) :: taken) := by
  intro single
  have one := single (112, 2) List.mem_cons_self
  cases one

/-- With room for its `0x`, a pointer takes two. -/
theorem converted_pointer (other : convert strings sw.flags sw.ch = none) (ch : sw.ch = 112)
    (two : 2 ≤ b.room) : Doubles (converted strings b fmt sw) := by
  simp only [converted, other, if_pos ch, if_pos two]
  cases sw.args with
  | nil => exact doubles_none
  | cons pointer args =>
    cases args with
    | nil => exact doubles_none
    | cons a args =>
      simp only
      split
      · intro r there
        obtain ⟨r', _, rfl⟩ := Option.map_eq_some_iff.mp there
        exact not_single_two r'.taken
      · intro r there
        cases there
        exact not_single_two []

theorem converted_doubles (directive : Directive strings fmt sw p args' fmt')
    (reached : ¬ Clear b.room (p :: ps))
    (later : ∀ b' : Sprintbuf, ¬ Clear b'.room ps → Doubles (vfprintfmt strings b' args' fmt')) :
    Doubles (converted strings b fmt sw) := by
  rw [clear_cons] at reached
  have behind (other : p.letter ≠ 112) : p.text.length ≤ b.room ∧
      Doubles (vfprintfmt strings (b.write p.text) args' fmt') := by
    have far : ¬ (p.text.length ≤ b.room → Clear (b.room - p.text.length) ps) := fun clear =>
      reached ⟨fun pointer => absurd pointer other, clear⟩
    obtain ⟨fits, reached'⟩ := Classical.not_imp.mp far
    rw [← Sprintbuf.room_write] at reached'
    exact ⟨fits, later _ reached'⟩
  cases directive with
  | @takes text a _ conv there =>
    obtain ⟨fits, doubles⟩ := behind (convert_ne conv)
    simp only [converted, conv, there, if_pos fits]
    exact doubles.takes _
  | @pointer a _ other ch there =>
    by_cases two : 2 ≤ b.room
    · exact converted_pointer other ch two
    · refine absurd ⟨fun _ => Nat.not_le.mp two, fun fits => ?_⟩ reached
      simp only [List.length_append, List.length_cons] at fits
      omega
  | escape other ch =>
    obtain ⟨fits, doubles⟩ := behind (by decide)
    simp only [converted, other]
    rw [if_neg (by rw [ch]; decide), if_pos ch, if_neg (Nat.pos_iff_ne_zero.mp fits)]
    exact doubles
  | percent other ch =>
    obtain ⟨fits, doubles⟩ := behind (by decide)
    simp only [converted, other]
    rw [if_neg (by rw [ch]; decide), if_neg (by rw [ch]; decide), if_pos ch,
      List.take_of_length_le fits]
    exact doubles
  | unknown other pointer escape percent =>
    obtain ⟨fits, doubles⟩ := behind (by decide)
    simp only [converted, other, if_neg pointer, if_neg escape, if_neg percent]
    rw [List.take_of_length_le fits]
    exact doubles

theorem vfprintfmt_doubles (whole : pieces strings args fmt = some (ps, left))
    (reached : ¬ Clear b.room ps) : Doubles (vfprintfmt strings b args fmt) := by
  induction len : fmt.length using Nat.strong_induction_on generalizing fmt b args ps left with
  | h n ih =>
    cases fmt with
    | nil =>
      rw [pieces] at whole
      cases whole
      rw [vfprintfmt]
      exact absurd clear_nil reached
    | cons ch fmt =>
      rw [List.length_cons] at len
      by_cases nul : ch = 0
      · rw [pieces, if_pos nul] at whole
        cases whole
        rw [vfprintfmt, if_pos nul]
        exact absurd clear_nil reached
      · by_cases percent : ch = 37
        · subst percent
          obtain ⟨sw, p, args', fmt', ps', found, directive, rfl, inner⟩ := pieces_directive whole
          have shorter := directive.length found
          rw [vfprintfmt_directive found]
          apply Doubles.takes
          apply converted_doubles directive reached
          intro b' reached'
          exact ih fmt'.length (by omega) inner reached' rfl
        · rw [pieces_literal nul percent] at whole
          obtain ⟨⟨ps', left'⟩, inner, same⟩ := Option.map_eq_some_iff.mp whole
          cases same
          have far : ¬ (1 ≤ b.room → Clear (b.room - 1) ps') := fun clear =>
            reached (clear_cons.mpr ⟨fun pointer => absurd pointer (by decide : (0 : Byte) ≠ 112), clear⟩)
          obtain ⟨fits, reached'⟩ := Classical.not_imp.mp far
          rw [vfprintfmt_literal nul percent, if_neg (Nat.pos_iff_ne_zero.mp fits)]
          apply ih fmt.length (by omega) inner _ rfl
          rwa [Sprintbuf.room_write]

end Runs

/-! ## The buffer when a call is done -/

section Bounded

variable {strings} {args left : List Arg} {fmt : List Byte} {ps : List Piece} {buf : Memory}
  {max : Int} {text : List Byte} {room size : Nat} {r : Formatted}

/-- What a call has put into the buffer. -/
def contents (room : Nat) (text : List Byte) : List Byte :=
  if text.length < room then text ++ [0] else text.take room

theorem contents_length : (contents room text).length ≤ room := by
  rw [contents]
  split
  · next fits => rwa [List.length_append]
  · exact List.length_take_le room text

theorem bounded_clear (whole : pieces strings args fmt = some (ps, left))
    (clear : Clear max.toNat ps) : ∃ r, bounded strings buf max fmt args = some r ∧
      r.sink.buf = store buf 0 (contents max.toNat (texts ps)) ∧ Single r.taken := by
  have all : Sprintbuf.room ⟨0, max, buf⟩ = max.toNat := by
    rw [Sprintbuf.room]
    exact congrArg Int.toNat (Int.sub_zero max)
  obtain ⟨left', taken, run, single⟩ := @vfprintfmt_ends strings ⟨0, max, buf⟩ ps args left fmt whole
    (by rwa [all])
  rw [all] at run
  rw [bounded, run, Option.map_some]
  refine ⟨_, rfl, ?_, ?_⟩
  · rw [contents]
    simp only [Sprintbuf.write, Nat.zero_add, List.length_take]
    by_cases fits : (texts ps).length < max.toNat
    · have less : ((min max.toNat (texts ps).length : Nat) : Int) < max := by omega
      rw [if_pos less, if_pos fits, List.take_of_length_le fits.le, Nat.min_eq_right fits.le]
      have both := @SandboxTEE.Lib.store_append _ buf 0 (texts ps) [0]
      rwa [Nat.zero_add] at both
    · have same : min max.toNat (texts ps).length = max.toNat := by omega
      rw [if_neg (by rw [same]; omega), if_neg fits]
  · split <;> exact single

theorem bounded_not_clear (whole : pieces strings args fmt = some (ps, left))
    (reached : ¬ Clear max.toNat ps) (done : bounded strings buf max fmt args = some r) :
    ¬ Single r.taken := by
  have all : Sprintbuf.room ⟨0, max, buf⟩ = max.toNat := by
    rw [Sprintbuf.room]
    exact congrArg Int.toNat (Int.sub_zero max)
  rw [← all] at reached
  rw [bounded] at done
  obtain ⟨r', run, rfl⟩ := Option.map_eq_some_iff.mp done
  have two := vfprintfmt_doubles whole reached r' run
  split <;> exact two

theorem cell_of_getElem? {k : Nat} {ch : Byte} (there : text[k]? = some ch) :
    store buf 0 text k = ch := by
  rw [store, if_pos (Nat.zero_le k), Nat.sub_zero, there, Option.getD_some]

/-- Any part of the buffer in front of what is put last is a part of what is put. -/
theorem bytesAt_store_initial {k : Nat} (le : k ≤ text.length) :
    bytesAt (store buf 0 text) 0 k <+: text := by
  have part := @SandboxTEE.Lib.bytesAt_prefix _ (store buf 0 text) 0 _ _ le
  rwa [SandboxTEE.Lib.bytesAt_store] at part

theorem sound_of_fits (within : room ≤ size) (put : r.sink.buf = store buf 0 (contents room text))
    (single : Single r.taken)
    (terminated : text.length < room ∨ size ≤ text.length ∧ 0 ∈ text.take room) :
    Sound size buf text r := by
  have short := @contents_length text room
  refine ⟨?_, ?_, single⟩
  · intro i behind
    rw [put]
    apply store_of_outside
    omega
  · rw [put]
    cases terminated with
    | inl fits =>
      have whole : bytesAt (store buf 0 (text ++ [0])) 0 text.length = text := by
        have both := SandboxTEE.Lib.bytesAt_eq_append.mp
          (@SandboxTEE.Lib.bytesAt_store _ buf 0 (text ++ [0]))
        exact both.1
      rw [contents, if_pos fits]
      refine ⟨text.length, by omega, cell_of_getElem? (by simp), ?_, fun _ => whole⟩
      exact ⟨[], (List.append_nil _).trans whole⟩
    | inr own =>
      obtain ⟨long, member⟩ := own
      obtain ⟨k, inside, nul⟩ := List.getElem_of_mem member
      have below := List.length_take_le room text
      rw [contents, if_neg (by omega)]
      refine ⟨k, by omega, cell_of_getElem? (by rw [List.getElem?_eq_getElem inside, nul]), ?_, ?_⟩
      · exact (bytesAt_store_initial inside.le).trans (List.take_prefix room text)
      · omega

/-- In a buffer without a NUL there is one only if the call has put it. -/
theorem fits_of_sound (put : r.sink.buf = store (fun _ => 1) 0 (contents room text))
    (sound : Sound size (fun _ => 1) text r) :
    text.length < room ∨ size ≤ text.length ∧ 0 ∈ text.take room := by
  by_cases fits : text.length < room
  · exact .inl fits
  · obtain ⟨k, inside, nul, -, whole⟩ := sound.terminated
    rw [put, contents, if_neg fits] at nul whole
    have below : k < (text.take room).length := by
      by_contra behind
      rw [store_of_outside (by omega)] at nul
      exact absurd nul (by decide)
    rw [store_of_inside (Nat.zero_le k) (by omega)] at nul
    refine .inr ⟨?_, nul ▸ List.getElem_mem _⟩
    by_contra short
    have len := congrArg List.length (whole (Nat.not_le.mp short))
    rw [SandboxTEE.Lib.length_bytesAt] at len
    rw [List.length_take] at below
    omega

theorem bounded_sound_iff (within : max.toNat ≤ size)
    (whole : pieces strings args fmt = some (ps, left)) :
    (∀ buf, ∃ r, bounded strings buf max fmt args = some r ∧ Sound size buf (texts ps) r) ↔
      Fits size max.toNat ps := by
  constructor
  · intro sound
    obtain ⟨r, done, ok⟩ := sound fun _ => 1
    have clear : Clear max.toNat ps := by
      by_contra reached
      exact bounded_not_clear whole reached done ok.each
    obtain ⟨r', done', put, -⟩ := @bounded_clear strings args left fmt ps (fun _ => 1) max whole clear
    cases done.symm.trans done'
    exact ⟨fits_of_sound put ok, clear⟩
  · intro fits buf
    obtain ⟨r, done, put, single⟩ :=
      @bounded_clear strings args left fmt ps buf max whole fits.clear
    exact ⟨r, done, sound_of_fits within put single fits.terminated⟩

/-- `"%d"` with a 5 -/
theorem pieces_five : pieces (fun _ => []) [5] [37, 100] = some ([⟨100, [53]⟩], []) := by
  have found : reswitch .start [5] [100] = some ⟨.start, 100, [], [5], 0⟩ := by
    rw [reswitch]
    rfl
  have digits : printnum 5 10 (-1) 32 = [53] := by
    rw [printnum]
    rfl
  rw [pieces, if_neg (by decide), if_neg (by decide)]
  split
  · next missing => cases found.symm.trans missing
  · next sw found' =>
    cases found.symm.trans found'
    have text : decimalText .start 5 = [53] := digits
    have conv : convert (fun _ => []) .start 100 = some (decimalText .start) := rfl
    simp only [conv, text]
    rw [pieces]
    rfl

end Bounded

end SandboxTEE.Stdlib
