import SandboxTEE.Lib.Base64
import SandboxTEE.Lib.Run
import SandboxTEE.Lib.Writes
import SandboxTEE.Stdlib.Scan

/-! # The report request (`make_report_message` in `wolfssl-ra-attester.c`)

The request for an attestation report is put together in a buffer of the caller: an HTTP header,
and a JSON object with the quote in Base64.  The header announces 1510 bytes whatever the quote
is, and the terminator goes 18 bytes behind the end, so that the byte at the end keeps what the
buffer held before (`makeReportMessage_correct_iff`).

Addresses are offsets in the buffer.
-/

namespace SandboxTEE.Attestation

open SandboxTEE.Lib SandboxTEE.Lib.Write
open SandboxTEE.Stdlib

/-! ## The encoder (`coding.c`) -/

inductive EncodeError where
  | badFuncArg
  | bufferE
  | asnInputE
  deriving DecidableEq

/-- `base64Encode` -/
def base64EncodeTable : List Byte :=
  ascii "ABCDEFGHIJKLMNOPQRSTUVWXYZabcdefghijklmnopqrstuvwxyz0123456789+/"

/-- `CEscape` where nothing is escaped: a character goes behind those that are stored. -/
def cEscape (raw : Bool) (e max : Nat) (out : List Byte) : Except EncodeError (List Byte) :=
  let basic := if raw then UInt8.ofNat e else base64EncodeTable.getD e 0
  if out.length + 1 > max then .error .bufferE else .ok (out ++ [basic])

/-- The loop over three bytes at a time, and the bytes it leaves. -/
def encodeLoop (max : Nat) : List Byte → List Byte → Except EncodeError (List Byte × List Byte)
  | b1 :: b2 :: b3 :: rest, out => do
    let e1 := b1.toNat >>> 2
    let e2 := (b1.toNat &&& 0x3) <<< 4 ||| b2.toNat >>> 4
    let e3 := (b2.toNat &&& 0xF) <<< 2 ||| b3.toNat >>> 6
    let e4 := b3.toNat &&& 0x3F
    let out ← cEscape false e1 max out
    let out ← cEscape false e2 max out
    let out ← cEscape false e3 max out
    let out ← cEscape false e4 max out
    encodeLoop max rest out
  | rest, out => .ok (rest, out)

/-- `/* last integral */` -/
def encodeLast (max : Nat) (rest out : List Byte) : Except EncodeError (List Byte) :=
  match rest with
  | [] => .ok out
  | b1 :: more => do
    let b2 := more.headD 0
    let e1 := b1.toNat >>> 2
    let e2 := (b1.toNat &&& 0x3) <<< 4 ||| b2.toNat >>> 4
    let e3 := (b2.toNat &&& 0xF) <<< 2
    let out ← cEscape false e1 max out
    let out ← cEscape false e2 max out
    let out ← if more = [] then cEscape true 61 max out else cEscape false e3 max out
    cEscape true 61 max out

/-- `(inLen + 3 - 1) / 3 * 4` as `word32` -/
def encodedSize (inLen : Nat) : Nat := (inLen + 3 - 1) % 2 ^ 32 / 3 * 4 % 2 ^ 32

/-- `DoBase64_Encode` without newlines, into a buffer that is there. -/
def base64EncodeNoNl (input : List Byte) (outLen : Nat) : Except EncodeError (List Byte) :=
  if encodedSize input.length > outLen then .error .badFuncArg
  else do
    let (rest, out) ← encodeLoop outLen input []
    let out ← encodeLast outLen rest out
    if out.length ≠ encodedSize input.length then .error .asnInputE else .ok out

/-! ## The message -/

/-- `base64_encode`; `none` is a failed assertion. -/
def base64Encode (input : List Byte) (outLen : Nat) : Option (List Byte) :=
  if outLen ≥ (encodedSize input.length + 1) % 2 ^ 32 then
    (base64EncodeNoNl input outLen).toOption
  else none

/-- `str` -/
@[irreducible]
def header : List Byte :=
  ascii "POST /sgx/dev/attestation/v4/report HTTP/1.1\r\n" ++
  ascii "Ocp-Apim-Subscription-Key: 86cfa3605c974cfea995bc296389cd34\r\n" ++
  ascii "Content-Type: application/json\r\n" ++
  ascii "Content-Length: 1510\r\n" ++
  ascii "Host: api.trustedservices.intel.com\r\n" ++
  ascii "\r\n"

def jsonTemplate : List Byte := ascii "\x7b\"isvEnclaveQuote\":\""
def jsonTemplate2 : List Byte := ascii "\"\x7d"

/-- `sizeof(quote_base64)` -/
def quoteBase64Size : Nat := 1500

/-- `char json[2000]` of the caller -/
def jsonSize : Nat := 2000

/-- The writes to the buffer, in order. -/
def makeReportMessage (quote : List Byte) : Option (List (Write Byte)) := do
  let quoteBase64 ← base64Encode quote quoteBase64Size
  let p := 0
  let first : Write Byte := ⟨p, header⟩
  let p := p + header.length
  let second : Write Byte := ⟨p, jsonTemplate⟩
  let p := p + jsonTemplate.length
  let third : Write Byte := ⟨p, quoteBase64⟩
  let p := p + quoteBase64.length
  let fourth : Write Byte := ⟨p, jsonTemplate2⟩
  -- the length of the first template
  let p := p + jsonTemplate.length
  some [first, second, third, fourth, ⟨p, [0]⟩]

/-! ## What is asked for -/

/-- The JSON object for a quote. -/
def body (quote : List Byte) : List Byte := jsonTemplate ++ Base64.encode quote ++ jsonTemplate2

/-- The number behind `Content-Length:`. -/
def contentLength (request : List Byte) : Option Int :=
  (firstOccurrence (ascii "Content-Length: ") request).map fun i => atoi (request.drop (i + 16))

/-- The encoded quote and the request fit their buffers, each with a terminator. -/
structure Fits (quote : List Byte) : Prop where
  encoded : (Base64.encode quote).length + 1 ≤ quoteBase64Size
  request : (header ++ body quote).length + 1 ≤ jsonSize

/-- The buffer holds header and body as a string, the header tells the length of the body, and
    no write leaves the buffer. -/
structure ReportRequest (mem : Memory) (quote : List Byte) (ws : List (Write Byte)) : Prop where
  request : HoldsString (applyAll mem ws) 0 (header ++ body quote)
  length : contentLength (header ++ body quote) = some ((body quote).length : Int)
  inside : ∀ w ∈ ws, w.Within 0 jsonSize

/-! ## The encoder encodes -/

/-- Low bits of one byte in front of some of the next. -/
theorem joined_bits (hi : Nat) (k w : Nat) {lo : Nat} (small : lo < 2 ^ w) :
    (hi &&& 2 ^ k - 1) <<< w ||| lo = hi % 2 ^ k * 2 ^ w + lo := by
  rw [Nat.and_two_pow_sub_one_eq_mod, ← Nat.shiftLeft_add_eq_or_of_lt small, Nat.shiftLeft_eq]

section Sextets

variable (b1 b2 b3 : Byte)

theorem sextet1 : b1.toNat >>> 2 = Base64.group b1 b2 b3 / 2 ^ (6 * 3) % 64 := by
  have := b1.toNat_lt
  have := b2.toNat_lt
  have := b3.toNat_lt
  rw [Nat.shiftRight_eq_div_pow, Base64.group]
  omega

theorem sextet2 : (b1.toNat &&& 0x3) <<< 4 ||| b2.toNat >>> 4 =
    Base64.group b1 b2 b3 / 2 ^ (6 * 2) % 64 := by
  have := b2.toNat_lt
  have := b3.toNat_lt
  have joined : (b1.toNat &&& 0x3) <<< 4 ||| b2.toNat / 2 ^ 4 =
      b1.toNat % 2 ^ 2 * 2 ^ 4 + b2.toNat / 2 ^ 4 := joined_bits _ 2 4 (by omega)
  rw [Nat.shiftRight_eq_div_pow, Base64.group, joined]
  omega

theorem sextet3 : (b2.toNat &&& 0xF) <<< 2 ||| b3.toNat >>> 6 =
    Base64.group b1 b2 b3 / 2 ^ (6 * 1) % 64 := by
  have := b3.toNat_lt
  have joined : (b2.toNat &&& 0xF) <<< 2 ||| b3.toNat / 2 ^ 6 =
      b2.toNat % 2 ^ 4 * 2 ^ 2 + b3.toNat / 2 ^ 6 := joined_bits _ 4 2 (by omega)
  rw [Nat.shiftRight_eq_div_pow, Base64.group, joined]
  omega

theorem sextet4 : b3.toNat &&& 0x3F = Base64.group b1 b2 b3 / 2 ^ (6 * 0) % 64 := by
  rw [Nat.and_two_pow_sub_one_eq_mod b3.toNat 6, Base64.group]
  omega

theorem sextet3_last : (b2.toNat &&& 0xF) <<< 2 = Base64.group b1 b2 0 / 2 ^ (6 * 1) % 64 := by
  have joined := sextet3 b1 b2 0
  simpa using joined

end Sextets

section Encoder

variable {max : Nat} {out : List Byte}

theorem cEscape_digit (room : out.length < max) (group place : Nat) :
    cEscape false (group / 2 ^ (6 * place) % 64) max out =
      .ok (out ++ [Base64.digitAt group place]) := by
  rw [cEscape, if_neg (by omega)]
  rfl

theorem cEscape_pad (room : out.length < max) : cEscape true 61 max out = .ok (out ++ [Base64.pad]) := by
  rw [cEscape, if_neg (by omega)]
  rfl

/-- The loop leaves less than three bytes, and what it stores lacks only their encoding. -/
theorem encodeLoop_spec : ∀ {input out : List Byte},
    out.length + (Base64.encode input).length ≤ max →
    ∃ rest out', encodeLoop max input out = .ok (rest, out') ∧ rest.length < 3 ∧
      out' ++ Base64.encode rest = out ++ Base64.encode input
  | b1 :: b2 :: b3 :: rest, out, room => by
    rw [Base64.encode] at room
    simp only [List.length_cons] at room
    have step : encodeLoop max (b1 :: b2 :: b3 :: rest) out = encodeLoop max rest
        (out ++ [Base64.digitAt (Base64.group b1 b2 b3) 3] ++
          [Base64.digitAt (Base64.group b1 b2 b3) 2] ++
          [Base64.digitAt (Base64.group b1 b2 b3) 1] ++
          [Base64.digitAt (Base64.group b1 b2 b3) 0]) := by
      rw [encodeLoop, sextet1 b1 b2 b3, sextet2 b1 b2 b3, sextet3 b1 b2 b3, sextet4 b1 b2 b3]
      dsimp only [bind, Except.bind]
      rw [cEscape_digit (by omega)]
      dsimp only
      rw [cEscape_digit (by simp only [List.length_append, List.length_singleton]; omega)]
      dsimp only
      rw [cEscape_digit (by simp only [List.length_append, List.length_singleton]; omega)]
      dsimp only
      rw [cEscape_digit (by simp only [List.length_append, List.length_singleton]; omega)]
    obtain ⟨rest', out', run, short, same⟩ := @encodeLoop_spec rest
      (out ++ [Base64.digitAt (Base64.group b1 b2 b3) 3] ++
          [Base64.digitAt (Base64.group b1 b2 b3) 2] ++
          [Base64.digitAt (Base64.group b1 b2 b3) 1] ++
          [Base64.digitAt (Base64.group b1 b2 b3) 0])
      (by simp only [List.length_append, List.length_singleton]; omega)
    refine ⟨rest', out', step.trans run, short, same.trans ?_⟩
    simp [Base64.encode]
  | [b1, b2], out, _ => ⟨[b1, b2], out, rfl, Nat.lt_succ_self 2, rfl⟩
  | [b1], out, _ => ⟨[b1], out, rfl, Nat.lt_succ_of_lt (Nat.lt_succ_self 1), rfl⟩
  | [], out, _ => ⟨[], out, rfl, Nat.succ_pos 2, rfl⟩

theorem encodeLast_spec : ∀ {rest : List Byte}, rest.length < 3 →
    out.length + (Base64.encode rest).length ≤ max →
    encodeLast max rest out = .ok (out ++ Base64.encode rest)
  | [], _, _ => by simp [encodeLast, Base64.encode]
  | [b1], _, room => by
    simp only [Base64.encode, List.length_cons, List.length_nil] at room
    rw [encodeLast]
    simp only [List.headD_nil, if_true, sextet1 b1 0 0, sextet2 b1 0 0]
    dsimp only [bind, Except.bind]
    rw [cEscape_digit (by omega)]
    dsimp only
    rw [cEscape_digit (by simp only [List.length_append, List.length_singleton]; omega)]
    dsimp only
    rw [cEscape_pad (by simp only [List.length_append, List.length_singleton]; omega)]
    dsimp only
    rw [cEscape_pad (by simp only [List.length_append, List.length_singleton]; omega)]
    simp [Base64.encode]
  | [b1, b2], _, room => by
    simp only [Base64.encode, List.length_cons, List.length_nil] at room
    rw [encodeLast]
    simp only [List.headD_cons, reduceCtorEq, if_false, sextet1 b1 b2 0, sextet2 b1 b2 0,
      sextet3_last b1 b2]
    dsimp only [bind, Except.bind]
    rw [cEscape_digit (by omega)]
    dsimp only
    rw [cEscape_digit (by simp only [List.length_append, List.length_singleton]; omega)]
    dsimp only
    rw [cEscape_digit (by simp only [List.length_append, List.length_singleton]; omega)]
    dsimp only
    rw [cEscape_pad (by simp only [List.length_append, List.length_singleton]; omega)]
    simp [Base64.encode]
  | _ :: _ :: _ :: rest, short, _ => by
    simp only [List.length_cons] at short
    omega

end Encoder

/-- A buffer with room for the encoding gets it. -/
theorem base64Encode_eq {input : List Byte} {outLen : Nat} (bounded : outLen < 2 ^ 32)
    (room : (Base64.encode input).length + 1 ≤ outLen) :
    base64Encode input outLen = some (Base64.encode input) := by
  have length := Base64.length_encode input
  have size : encodedSize input.length = (Base64.encode input).length := by
    have small : input.length + 2 < 2 ^ 32 := by omega
    rw [encodedSize, length, Nat.add_sub_assoc (by decide), Nat.mod_eq_of_lt small,
      Nat.mod_eq_of_lt (by omega)]
  obtain ⟨rest, out, loop, short, same⟩ :=
    @encodeLoop_spec outLen input [] (by rw [List.length_nil]; omega)
  have last := @encodeLast_spec outLen out rest short
    (by rw [← List.length_append, same, List.nil_append]; omega)
  rw [same, List.nil_append] at last
  rw [base64Encode, if_pos (by omega), base64EncodeNoNl, if_neg (by omega), loop]
  dsimp only [bind, Except.bind]
  rw [last]
  dsimp only
  rw [if_neg (by rw [size]; exact fun differs => differs rfl)]
  rfl

/-! ## The request -/

section Message

variable {mem : Memory} {quote : List Byte}

/-- The length of the header, and the line with the number 1510. -/
theorem header_spec : header.length = 200 ∧ (0 : Byte) ∉ header ∧
    firstOccurrence (ascii "Content-Length: ") header = some 139 ∧
    header.drop 155 = 49 :: 53 :: 49 :: 48 :: 13 :: header.drop 160 := by decide +kernel

theorem length_header : header.length = 200 := header_spec.1

theorem length_request : (header ++ body quote).length = 222 + (quote.length + 2) / 3 * 4 := by
  have first : jsonTemplate.length = 20 := by rfl
  have second : jsonTemplate2.length = 2 := by rfl
  simp only [body, List.length_append, length_header, Base64.length_encode, first, second]
  omega

theorem fits_of_length (small : quote.length ≤ 1122) : Fits quote := by
  constructor
  · rw [Base64.length_encode, quoteBase64Size]
    omega
  · rw [length_request, jsonSize]
    omega

/-- The four parts stand one behind the other, and the terminator 18 bytes behind them. -/
theorem makeReportMessage_eq (fits : Fits quote) : makeReportMessage quote = some
      (placeFrom 0 [header, jsonTemplate, Base64.encode quote, jsonTemplate2] ++
        [⟨(header ++ body quote).length + 18, [0]⟩]) := by
  have encoded := base64Encode_eq (by decide : quoteBase64Size < 2 ^ 32) fits.encoded
  have behind : (header ++ body quote).length + 18 =
      0 + header.length + jsonTemplate.length + (Base64.encode quote).length +
        jsonTemplate.length := by
    have first : jsonTemplate.length = 20 := by rfl
    have second : jsonTemplate2.length = 2 := by rfl
    simp only [body, List.length_append, first, second]
    omega
  rw [makeReportMessage, encoded, behind]
  rfl

variable {ws : List (Write Byte)}

/-- The memory behind the call: the request, the bytes of before, and a terminator. -/
theorem applyAll_makeReportMessage (fits : Fits quote) (made : makeReportMessage quote = some ws) :
    applyAll mem ws = store (store mem 0 (header ++ body quote))
      ((header ++ body quote).length + 18) [0] := by
  rw [makeReportMessage_eq fits] at made
  cases made
  have parts : [header, jsonTemplate, Base64.encode quote, jsonTemplate2].flatten =
      header ++ body quote := by
    simp only [List.flatten_cons, List.flatten_nil, List.append_nil, body, List.append_assoc]
  rw [applyAll, List.foldl_append]
  change store (applyAll mem (placeFrom 0 _)) _ _ = _
  rw [applyAll_placeFrom, parts]

theorem request_ne_zero : (0 : Byte) ∉ header ++ body quote := by
  have templates : (0 : Byte) ∉ jsonTemplate ∧ (0 : Byte) ∉ jsonTemplate2 := by decide +kernel
  simp only [body, List.mem_append, not_or]
  exact ⟨header_spec.2.1, ⟨templates.1, Base64.encode_ne_zero⟩, templates.2⟩

/-- The buffer holds the request exactly when it held a NUL behind it before. -/
theorem holdsString_makeReportMessage (fits : Fits quote)
    (made : makeReportMessage quote = some ws) :
    HoldsString (applyAll mem ws) 0 (header ++ body quote) ↔
      mem (header ++ body quote).length = 0 := by
  rw [applyAll_makeReportMessage fits made, holdsString_iff request_ne_zero]
  · rw [Nat.zero_add, store_of_outside (Or.inl (by omega)),
      store_of_outside (Or.inr (by omega))]
  · rw [bytesAt_store_of_apart (Or.inl (by omega))]
    exact bytesAt_store

/-- Whatever the body is, the header announces 1510 bytes. -/
theorem contentLength_request : contentLength (header ++ body quote) = some 1510 := by
  obtain ⟨-, -, found, number⟩ := header_spec
  have drop : (header ++ body quote).drop (139 + 16) =
      49 :: 53 :: 49 :: 48 :: 13 :: (header.drop 160 ++ body quote) := by
    rw [List.drop_append_of_le_length (by rw [length_header]; decide), number]
    rfl
  rw [contentLength, firstOccurrence_append _ found, Option.map_some, drop]
  simp [atoi, isDigit]

theorem makeReportMessage_inside (fits : Fits quote) (made : makeReportMessage quote = some ws) :
    ∀ w ∈ ws, w.Within 0 jsonSize := by
  have encoded := fits.encoded
  have length := @length_request quote
  rw [Base64.length_encode, quoteBase64Size] at encoded
  rw [makeReportMessage_eq fits] at made
  cases made
  intro w member
  cases List.mem_append.mp member with
  | inl part =>
    refine (within_placeFrom part).mono (Nat.le_refl 0) ?_
    have parts : [header, jsonTemplate, Base64.encode quote, jsonTemplate2].flatten =
        header ++ body quote := by
      simp only [List.flatten_cons, List.flatten_nil, List.append_nil, body, List.append_assoc]
    rw [parts, length, jsonSize]
    omega
  | inr last =>
    cases List.mem_singleton.mp last
    refine ⟨Nat.zero_le _, ?_⟩
    change (header ++ body quote).length + 18 + 1 ≤ 2000
    omega

/-- For every quote that fits and whatever the buffer holds: the request is right exactly when the
    encoded quote has 1488 characters, and the byte behind the request was a NUL before. -/
theorem makeReportMessage_correct_iff (mem : Memory) (quote : List Byte) (fits : Fits quote) :
    (∃ ws, makeReportMessage quote = some ws ∧ ReportRequest mem quote ws) ↔
      (1114 ≤ quote.length ∧ quote.length ≤ 1116) ∧ mem (header ++ body quote).length = 0 := by
  have length : (body quote).length = 22 + (quote.length + 2) / 3 * 4 := by
    have whole := @length_request quote
    rw [List.length_append, length_header] at whole
    omega
  constructor
  · rintro ⟨ws, made, ⟨holds, announced, -⟩⟩
    rw [contentLength_request] at announced
    rw [holdsString_makeReportMessage fits made] at holds
    have announced := Option.some.inj announced
    exact ⟨by omega, holds⟩
  · rintro ⟨size, nul⟩
    refine ⟨_, makeReportMessage_eq fits, ?_, ?_, ?_⟩
    · rwa [holdsString_makeReportMessage fits (makeReportMessage_eq fits)]
    · exact contentLength_request.trans (congrArg some (by omega))
    · exact makeReportMessage_inside fits (makeReportMessage_eq fits)

theorem makeReportMessage_correct_iff_1114 :
    (∃ ws, makeReportMessage (List.replicate 1114 0) = some ws ∧
      ReportRequest (fun _ => 0) (List.replicate 1114 0) ws) ↔
      (1114 ≤ (List.replicate 1114 (0 : Byte)).length ∧
        (List.replicate 1114 (0 : Byte)).length ≤ 1116) ∧ (0 : Byte) = 0 :=
  makeReportMessage_correct_iff (fun _ => 0) (List.replicate 1114 0)
    (fits_of_length (by rw [List.length_replicate]; decide))

/-- A quote of 432 bytes: the body has 598 bytes. -/
theorem makeReportMessage_quote432 : ¬ ∀ (mem : Memory) (quote : List Byte), Fits quote →
    ∃ ws, makeReportMessage quote = some ws ∧ ReportRequest mem quote ws := by
  intro every
  have fits : Fits (List.replicate 432 (0 : Byte)) :=
    fits_of_length (by rw [List.length_replicate]; decide)
  obtain ⟨ws, -, request⟩ := every (fun _ => 0) _ fits
  have announced := Option.some.inj (contentLength_request.symm.trans request.length)
  have length := @length_request (List.replicate 432 0)
  rw [List.length_append, length_header, List.length_replicate] at length
  omega

end Message

end SandboxTEE.Attestation
