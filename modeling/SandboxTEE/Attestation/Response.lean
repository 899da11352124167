import SandboxTEE.Attestation.ReportMessage

/-! # The attestation response (`wolfssl-ra-attester.c`)

The header of the response is searched with `my_memmem`, and the certificates in it are decoded
with `my_urldecode` before they are searched in turn.

`my_memmem` looks for the first byte of the needle in all of the haystack, and compares where it
stands, even if the haystack ends before the needle would (`Overruns`).  `my_urldecode` stores a
terminator that the block of its caller has no room for unless something was escaped.

A pointer is an offset in the buffer it points into.  `memcmp` and `memcpy` need all bytes that they
are told to read.  `header_len` is an `int` in the caller.
-/

namespace SandboxTEE.Attestation

open SandboxTEE.Lib
open SandboxTEE.Stdlib

inductive Fault where
  /-- An access outside the buffer, or arithmetic on NULL. -/
  | undefined
  | assertion

/-! ## `my_memmem` -/

def myMemchr (big : List Byte) (ch : Byte) : Option Nat := big.findIdx? fun b => b == ch

/-- Whether `memcmp` finds the needle at `p`. -/
def memcmpEqual (haystack : List Byte) (p : Nat) (needle : List Byte) : Except Fault Bool :=
  if p + needle.length ≤ haystack.length then .ok ((haystack.drop p).take needle.length == needle)
  else .error .undefined

theorem myMemchr_lt {big : List Byte} {ch : Byte} {k : Nat} (found : myMemchr big ch = some k) :
    k < big.length := (List.findIdx?_eq_some_iff_findIdx_eq.mp found).1

/-- The loop at `p`, where `rest` is what is left of the haystack. -/
def memmemLoop (needle : List Byte) (pt : Byte) (p : Nat) (rest : List Byte) :
    Except Fault (Option Nat) :=
  if needle.length ≤ rest.length then
    match found : myMemchr rest pt with
    | none => .ok none
    | some k => do
      if ← memcmpEqual rest k needle then .ok (some (p + k))
      else
        have := myMemchr_lt found
        memmemLoop needle pt (p + k + 1) (rest.drop (k + 1))
  else .ok none
termination_by rest.length
decreasing_by
  rw [List.length_drop]
  omega

/-- `*pt` is read in any case. -/
def myMemmem (haystack needle : List Byte) : Except Fault (Option Nat) :=
  match needle with
  | [] => .error .undefined
  | pt :: _ => memmemLoop needle pt 0 haystack

/-! ## `my_urldecode` -/

def misxdigit (c : Byte) : Bool :=
  (48 ≤ c && c ≤ 57) || (97 ≤ c && c ≤ 102) || (65 ≤ c && c ≤ 70)

/-- The two subtractions for one digit. -/
def hexValue (a : Byte) : Byte :=
  let a := if 97 ≤ a then a - (97 - 65) else a
  if 65 ≤ a then a - (65 - 10) else a - 48

/-- The byte that is escaped by what stands behind a `%`, if it is an escape. -/
def escapedBy : List Byte → Except Fault (Option Byte)
  | [] => .error .undefined
  | a :: rest =>
    if a = 0 then .ok none
    else match rest with
      | [] => .error .undefined
      | b :: _ =>
        if b ≠ 0 ∧ misxdigit a ∧ misxdigit b then .ok (some (16 * hexValue a + hexValue b))
        else .ok none

/-- The loop.  `srcLen` may fall below zero, where it stops as at zero. -/
def urldecodeLoop (srcLen : Nat) (src : List Byte) : Except Fault (List Byte) :=
  if 0 < srcLen then
    match src with
    | [] => .error .undefined
    | c :: rest => do
      let escaped ← if c = 37 then escapedBy rest else .ok none
      match escaped with
      | some value => return value :: (← urldecodeLoop (srcLen - 3) (rest.drop 2))
      | none => return (if c = 43 then 32 else c) :: (← urldecodeLoop (srcLen - 1) rest)
  else .ok []
termination_by src.length
decreasing_by
  · simp only [List.length_drop, List.length_cons]
    omega
  · simp

/-- The bytes that are written to `dst`; all but the terminator are counted in `*dst_len`. -/
def myUrldecode (src : List Byte) (srcLen : Nat) : Except Fault (List Byte) := do
  return (← urldecodeLoop srcLen src) ++ [0]

/-! ## The two parsers -/

def crlf : List Byte := [13, 10]
def sigTag : List Byte := ascii "X-IASReport-Signature: "
def responseHeaderName : List Byte := ascii "X-IASReport-Signing-Certificate: "
def pemMarkerBegin : List Byte := ascii "-----BEGIN CERTIFICATE-----"
def pemMarkerEnd : List Byte := ascii "-----END CERTIFICATE-----"

/-- The size of each array of `attestation_verification_report_t`. -/
def reportFieldSize : Nat := 2 * 1024

/-- `assert(… != NULL)` -/
def assertFound : Option Nat → Except Fault Nat
  | none => .error .assertion
  | some p => .ok p

/-- `memcpy` from an offset. -/
def readBytes (buffer : List Byte) (p len : Nat) : Except Fault (List Byte) :=
  if p + len ≤ buffer.length then .ok ((buffer.drop p).take len) else .error .undefined

/-- The signature. -/
def parseResponseHeader (header : List Byte) (signatureMaxSize : Nat) :
    Except Fault (List Byte) := do
  let sigBegin ← assertFound (← myMemmem header sigTag)
  let sigBegin := sigBegin + sigTag.length
  let sigLen ← assertFound (← myMemmem (header.drop sigBegin) crlf)
  if sigLen ≤ signatureMaxSize then readBytes header sigBegin sigLen else .error .assertion

/-- The certificate between the markers at two offsets.  The length is an `uint32_t`. -/
def copyCertificate (unescaped : List Byte) (certBegin certEnd : Nat) :
    Except Fault (List Byte) :=
  let certLen : Int := ((certEnd : Int) - certBegin + pemMarkerEnd.length) % 2 ^ 32
  if certLen ≤ reportFieldSize then readBytes unescaped certBegin certLen.toNat
  else .error .assertion

/-- The searches in the decoded text. -/
def findCertificates (unescaped : List Byte) : Except Fault (List Byte × List Byte) := do
  let certBegin ← assertFound (← myMemmem unescaped pemMarkerBegin)
  let certEnd ← assertFound (← myMemmem unescaped pemMarkerEnd)
  let signCert ← copyCertificate unescaped certBegin certEnd
  let next ← assertFound (← myMemmem (unescaped.drop certEnd) pemMarkerBegin)
  let certBegin := certEnd + next
  let next ← assertFound (← myMemmem (unescaped.drop certBegin) pemMarkerEnd)
  let signCaCert ← copyCertificate unescaped certBegin (certBegin + next)
  return (signCert, signCaCert)

/-- `unescaped`: a block of the size of the field, with what is in it before. -/
def unescape (block src : List Byte) : Except Fault (List Byte) := do
  let written ← myUrldecode src block.length
  if written.length ≤ block.length then return written ++ block.drop written.length
  else .error .undefined

/-- The two certificates.  `heap` is what the allocated block holds.  Without a line end the
    length is the difference between NULL and a pointer. -/
def extractCertificatesFromResponseHeader (heap : Nat → Byte) (header : List Byte) :
    Except Fault (List Byte × List Byte) := do
  let fieldBegin ← assertFound (← myMemmem header responseHeaderName)
  let fieldBegin := fieldBegin + responseHeaderName.length
  match ← myMemmem (header.drop fieldBegin) crlf with
  | none => .error .undefined
  | some fieldLen => do
    -- the length of the encoded text, not of the decoded one
    let unescaped ← unescape (bytesAt heap 0 fieldLen) (header.drop fieldBegin)
    findCertificates unescaped

end SandboxTEE.Attestation
