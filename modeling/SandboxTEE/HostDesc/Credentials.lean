import SandboxTEE.Lib.Run
import SandboxTEE.Lib.Writes
import SandboxTEE.Stdlib.Scan
import SandboxTEE.Stdlib.Strtok

/-! # The credentials for the key server

`redis_auth_key_gen` (`sel_ldr_sgx.c`) takes identifier and password from a reply of the server,
`NaClSysOpen` (`sys_filename.c`) copies them for each descriptor, and `gen_sks_auth_msg`
(`nacl_host_desc.c`) puts them into a message again.  The copies have no room for a NUL, and the
message buffer has 128 bytes.

Allocation succeeds; where the blocks are is up to the heap.
-/

namespace SandboxTEE.HostDesc

open SandboxTEE.Lib SandboxTEE.Lib.Write
open SandboxTEE.Stdlib

/-! ## `redis_auth_key_gen` -/

def crlf : List Byte := [13, 10]
def dollar : Byte := 36

/-- The part of `struct NaClCTX` that is copied: strings without their NULs. -/
structure NaClCTX where
  redisIdLen : List Byte
  redisId : List Byte
  redisPwLen : List Byte
  redisPw : List Byte
  deriving DecidableEq

inductive KeyGenError where
  | wrongResponse
  /-- A token is missing, and NULL is passed to a string function. -/
  | nullPointer
  deriving DecidableEq

/-- `strtok_r(NULL, "\r\n", &next_ptr)`, whose result is used. -/
def nextToken (lasts : List Byte) : Except KeyGenError (List Byte × List Byte) :=
  match strtokRSet crlf lasts with
  | (none, _) => .error .nullPointer
  | (some token, lasts) => .ok (token, lasts)

/-- `atoi(strtok_r(tok, "$", &next_ptr2))` -/
def bulkLength (token : List Byte) : Except KeyGenError Int :=
  match strtokRSet [dollar] token with
  | (none, _) => .error .nullPointer
  | (some digits, _) => .ok (atoi digits)

/-- A length and a string of that length. -/
def bulkString (lasts : List Byte) : Except KeyGenError (List Byte × List Byte × List Byte) := do
  let (lenToken, lasts) ← nextToken lasts
  let len ← bulkLength lenToken
  let (token, lasts) ← nextToken lasts
  if len ≠ token.length then .error .wrongResponse else .ok (lenToken, token, lasts)

/-- The reply is read into a zeroed buffer of 512 bytes.  A token that is skipped may be missing:
    then the next one is, too. -/
def redisAuthKeyGen (response : List Byte) : Except KeyGenError NaClCTX := do
  let (array, lasts) ← nextToken (cstr (response.take 511))
  if array ≠ [42, 50] then .error .wrongResponse
  else do
    let (_, lasts) ← nextToken lasts
    let (status, lasts) ← nextToken lasts
    if status ≠ [79, 75] then .error .wrongResponse
    else do
      let (_, lasts) ← nextToken lasts
      let (redisIdLen, redisId, lasts) ← bulkString lasts
      let (redisPwLen, redisPw, _) ← bulkString lasts
      .ok ⟨redisIdLen, redisId, redisPwLen, redisPw⟩

/-- A string that can stand in a message. -/
def Plain (s : List Byte) : Prop := (0 : Byte) ∉ s ∧ ∀ b ∈ s, b ∉ crlf

structure NaClCTX.Plain (ctx : NaClCTX) : Prop where
  redisIdLen : HostDesc.Plain ctx.redisIdLen
  redisId : HostDesc.Plain ctx.redisId
  redisPwLen : HostDesc.Plain ctx.redisPwLen
  redisPw : HostDesc.Plain ctx.redisPw

variable {rest lasts token : List Byte}

theorem nextToken_ok (noNul : (0 : Byte) ∉ lasts) (found : nextToken lasts = .ok (token, rest)) :
    Plain token ∧ (0 : Byte) ∉ rest := by
  rw [nextToken] at found
  split at found
  · cases found
  · next token lasts scanned =>
    cases found
    obtain ⟨inside, behind⟩ := strtokRSet_some scanned
    exact ⟨⟨fun nul => noNul (inside _ nul).1, fun b member => (inside b member).2⟩,
      fun nul => noNul (behind _ nul)⟩

theorem bulkString_ok {lenToken : List Byte} (noNul : (0 : Byte) ∉ lasts)
    (found : bulkString lasts = .ok (lenToken, token, rest)) :
    Plain lenToken ∧ Plain token ∧ (0 : Byte) ∉ rest := by
  obtain ⟨⟨lenToken₁, lasts₁⟩, first, found⟩ := bind_eq_ok found
  obtain ⟨len, _, found⟩ := bind_eq_ok found
  obtain ⟨⟨token₁, lasts₂⟩, second, found⟩ := bind_eq_ok found
  obtain ⟨plain, noNul₁⟩ := nextToken_ok noNul first
  obtain ⟨plain', noNul₂⟩ := nextToken_ok noNul₁ second
  dsimp only at found
  split at found
  · cases found
  · cases found
    exact ⟨plain, plain', noNul₂⟩

variable {ctx : NaClCTX}

/-- What the server has sent can stand in a message. -/
theorem redisAuthKeyGen_plain {response : List Byte}
    (obtained : redisAuthKeyGen response = .ok ctx) : ctx.Plain := by
  have noNul : (0 : Byte) ∉ cstr (response.take 511) := by
    intro nul
    simpa using List.mem_takeWhile_imp nul
  obtain ⟨⟨array, lasts₁⟩, first, found⟩ := bind_eq_ok obtained
  have noNul₁ := (nextToken_ok noNul first).2
  dsimp only at found
  split at found
  · cases found
  · obtain ⟨⟨_, lasts₂⟩, second, found⟩ := bind_eq_ok found
    have noNul₂ := (nextToken_ok noNul₁ second).2
    obtain ⟨⟨status, lasts₃⟩, third, found⟩ := bind_eq_ok found
    have noNul₃ := (nextToken_ok noNul₂ third).2
    dsimp only at found
    split at found
    · cases found
    · obtain ⟨⟨_, lasts₄⟩, fourth, found⟩ := bind_eq_ok found
      have noNul₄ := (nextToken_ok noNul₃ fourth).2
      obtain ⟨⟨idLen, id, lasts₅⟩, fifth, found⟩ := bind_eq_ok found
      obtain ⟨plainIdLen, plainId, noNul₅⟩ := bulkString_ok noNul₄ fifth
      obtain ⟨⟨pwLen, pw, lasts₆⟩, sixth, found⟩ := bind_eq_ok found
      obtain ⟨plainPwLen, plainPw, _⟩ := bulkString_ok noNul₅ sixth
      cases found
      exact ⟨plainIdLen, plainId, plainPwLen, plainPw⟩

/-! ## The copies of `NaClSysOpen` -/

/-- The pointers of `struct DescCTX`. -/
structure DescStrings where
  redisIdLen : Nat
  redisId : Nat
  redisPwLen : Nat
  redisPw : Nat

/-- `malloc(strlen(s))` and `memcpy` of `strlen(s)` bytes, for the four strings. -/
def copyWrites (p : DescStrings) (ctx : NaClCTX) : List (Write Byte) :=
  [⟨p.redisIdLen, ctx.redisIdLen⟩, ⟨p.redisPwLen, ctx.redisPwLen⟩, ⟨p.redisId, ctx.redisId⟩,
    ⟨p.redisPw, ctx.redisPw⟩]

/-- The sizes passed to `malloc`. -/
def copySizes (ctx : NaClCTX) : List Nat :=
  [ctx.redisIdLen.length, ctx.redisPwLen.length, ctx.redisId.length, ctx.redisPw.length]

/-! ## `gen_sks_auth_msg` -/

/-- `char msg[128] = "*3\r\n$4\r\nAUTH\r\n";` -/
def msgStart : List Byte := [42, 51, 13, 10, 36, 52, 13, 10, 65, 85, 84, 72, 13, 10]

def msgSize : Nat := 128

/-- The eight calls of `strcat`. -/
def concatenated (redisIdLen redisId redisPwLen redisPw : List Byte) : List Byte :=
  msgStart ++ redisIdLen ++ crlf ++ redisId ++ crlf ++ redisPwLen ++ crlf ++ redisPw ++ crlf

/-- The message, if all strings end before memory does.  The buffer is written up to the NUL
    behind the message. -/
def genSksAuthMsg (mem : Memory) (top : Nat) (p : DescStrings) : Option (List Byte) := do
  let redisIdLen ← stringAt mem top p.redisIdLen
  let redisId ← stringAt mem top p.redisId
  let redisPwLen ← stringAt mem top p.redisPwLen
  let redisPw ← stringAt mem top p.redisPw
  some (concatenated redisIdLen redisId redisPwLen redisPw)

/-- `ret = malloc(strlen(msg)); memcpy(ret, msg, strlen(msg));`, and what `redis_get_key` then
    sends: the string at `ret`. -/
def sentAuthMsg (mem : Memory) (top ret : Nat) (msg : List Byte) : Option (List Byte) :=
  stringAt (Lib.store mem ret msg) top ret

/-! ## The encoding -/

def decimal (n : Nat) : List Byte := (Nat.toDigits 10 n).map fun c => UInt8.ofNat c.toNat

/-- `$<len>` -/
def respLength (s : List Byte) : List Byte := dollar :: decimal s.length

def respBulk (s : List Byte) : List Byte := respLength s ++ crlf ++ s ++ crlf

/-- `*<count>` and the strings -/
def respArray (items : List (List Byte)) : List Byte :=
  42 :: decimal items.length ++ crlf ++ items.flatMap respBulk

def auth : List Byte := [65, 85, 84, 72]

def respAuth (id pw : List Byte) : List Byte := respArray [auth, id, pw]

theorem digit_byte {c : Char} (digit : c.isDigit = true) :
    48 ≤ (UInt8.ofNat c.toNat).toNat ∧ (UInt8.ofNat c.toNat).toNat ≤ 57 := by
  have range : 48 ≤ c.toNat ∧ c.toNat ≤ 57 := by
    simpa [Char.isDigit, Char.le_def, UInt32.le_iff_toNat_le] using digit
  rw [UInt8.toNat_ofNat', Nat.mod_eq_of_lt (by omega)]
  exact range

/-- A length is made of digits and the dollar sign. -/
theorem respLength_plain (s : List Byte) : Plain (respLength s) := by
  have digits : ∀ b ∈ decimal s.length, 48 ≤ b.toNat := by
    intro b member
    obtain ⟨c, inside, rfl⟩ := List.mem_map.mp member
    exact (digit_byte (Nat.isDigit_of_mem_toDigits (by decide) (by decide) inside)).1
  constructor
  · intro nul
    cases List.mem_cons.mp nul with
    | inl first => exact absurd first (by decide)
    | inr later => exact absurd (digits 0 later) (by decide)
  · intro b member ends
    cases List.mem_cons.mp member with
    | inl first => exact absurd (first ▸ ends) (by decide)
    | inr later =>
      have above := digits b later
      rcases List.mem_pair.mp ends with rfl | rfl
      · exact absurd above (by decide)
      · exact absurd above (by decide)

theorem concatenated_respLength (id pw : List Byte) :
    concatenated (respLength id) id (respLength pw) pw = respAuth id pw := by
  have start : msgStart = 42 :: decimal 3 ++ crlf ++ respBulk auth := by decide
  rw [concatenated, start, respAuth, respArray]
  simp only [List.flatMap_cons, List.flatMap_nil, List.append_nil, respBulk, List.append_assoc,
    List.cons_append, List.length_cons, List.length_nil]

/-- A string in front of a line end can be read off. -/
theorem append_crlf_inj {s t rest' : List Byte} (hs : Plain s) (ht : Plain t)
    (same : s ++ (crlf ++ rest) = t ++ (crlf ++ rest')) : s = t ∧ rest = rest' := by
  have noCr {u : List Byte} (plain : Plain u) : (13 : Byte) ∉ u := fun member =>
    plain.2 13 member List.mem_cons_self
  have front := congrArg (List.takeWhile fun b => b ≠ 13) same
  simp only [crlf, List.cons_append] at front
  rw [(takeWhile_append_control (noCr hs)).1, (takeWhile_append_control (noCr ht)).1] at front
  subst front
  exact ⟨rfl, List.append_cancel_left (List.append_cancel_left same)⟩

theorem concatenated_eq_respAuth_iff (plain : ctx.Plain) :
    concatenated ctx.redisIdLen ctx.redisId ctx.redisPwLen ctx.redisPw =
        respAuth ctx.redisId ctx.redisPw ↔
      ctx.redisIdLen = respLength ctx.redisId ∧ ctx.redisPwLen = respLength ctx.redisPw := by
  constructor
  · intro same
    rw [← concatenated_respLength] at same
    simp only [concatenated, List.append_assoc, List.append_cancel_left_eq] at same
    obtain ⟨idLen, same⟩ := append_crlf_inj plain.redisIdLen (respLength_plain _) same
    obtain ⟨_, same⟩ := append_crlf_inj plain.redisId plain.redisId same
    exact ⟨idLen, (append_crlf_inj plain.redisPwLen (respLength_plain _) same).1⟩
  · rintro ⟨idLen, pwLen⟩
    rw [idLen, pwLen, concatenated_respLength]

/-! ## From the server and back -/

/-- The message is the encoding of what the server has sent, every string on the way ends where
    its copy ends, and no buffer is written past its end. -/
structure CredentialsSent (mem : Memory) (top ret : Nat) (p : DescStrings) (ctx : NaClCTX) :
    Prop where
  redisIdLen : stringAt mem top p.redisIdLen = some ctx.redisIdLen
  redisId : stringAt mem top p.redisId = some ctx.redisId
  redisPwLen : stringAt mem top p.redisPwLen = some ctx.redisPwLen
  redisPw : stringAt mem top p.redisPw = some ctx.redisPw
  copies : List.Forall₂ (fun w size => w.cells.length ≤ size) (copyWrites p ctx) (copySizes ctx)
  message : genSksAuthMsg mem top p = some (respAuth ctx.redisId ctx.redisPw)
  fits : (respAuth ctx.redisId ctx.redisPw).length < msgSize
  sent : sentAuthMsg mem top ret (respAuth ctx.redisId ctx.redisPw) =
    some (respAuth ctx.redisId ctx.redisPw)

def messageLength (ctx : NaClCTX) : Nat :=
  22 + ctx.redisIdLen.length + ctx.redisId.length + ctx.redisPwLen.length + ctx.redisPw.length

/-- There happens to be a NUL behind each block, the lengths are written the usual way, and
    everything is short enough. -/
structure CredentialsFit (mem : Memory) (ret : Nat) (p : DescStrings) (ctx : NaClCTX) : Prop where
  redisIdLenEnd : mem (p.redisIdLen + ctx.redisIdLen.length) = 0
  redisIdEnd : mem (p.redisId + ctx.redisId.length) = 0
  redisPwLenEnd : mem (p.redisPwLen + ctx.redisPwLen.length) = 0
  redisPwEnd : mem (p.redisPw + ctx.redisPw.length) = 0
  messageEnd : mem (ret + messageLength ctx) = 0
  redisIdLen : ctx.redisIdLen = respLength ctx.redisId
  redisPwLen : ctx.redisPwLen = respLength ctx.redisPw
  short : messageLength ctx < msgSize

theorem length_concatenated (ctx : NaClCTX) :
    (concatenated ctx.redisIdLen ctx.redisId ctx.redisPwLen ctx.redisPw).length =
      messageLength ctx := by
  simp only [concatenated, messageLength, List.length_append, msgStart, crlf, List.length_cons,
    List.length_nil]
  omega

theorem concatenated_noNul (plain : ctx.Plain) :
    (0 : Byte) ∉ concatenated ctx.redisIdLen ctx.redisId ctx.redisPwLen ctx.redisPw := by
  have start : (0 : Byte) ∉ msgStart := by decide
  have ends : (0 : Byte) ∉ crlf := by decide
  simp only [concatenated, List.mem_append, start, ends, plain.redisIdLen.1, plain.redisId.1,
    plain.redisPwLen.1, plain.redisPw.1, or_self, not_false_eq_true]

/-- What is sent ends with the message if a NUL stands behind the block. -/
theorem sentAuthMsg_eq_some_iff {mem : Memory} {top ret : Nat} {msg : List Byte}
    (noNul : (0 : Byte) ∉ msg) (inside : ret + msg.length < top) :
    sentAuthMsg mem top ret msg = some msg ↔ mem (ret + msg.length) = 0 := by
  rw [sentAuthMsg, stringAt_eq_some_iff noNul bytesAt_store inside,
    store_of_outside (Or.inr (Nat.le_refl _))]

/-- For what `redis_auth_key_gen` has obtained, copied to blocks of its own and left alone until
    the message is built. -/
theorem credentialsSent_iff {response : List Byte} {ctx : NaClCTX} {before mem : Memory}
    {top ret : Nat} {p : DescStrings} (obtained : redisAuthKeyGen response = .ok ctx)
    (apart : (copyWrites p ctx).Pairwise Apart)
    (kept : ∀ w ∈ copyWrites p ctx, bytesAt mem w.addr w.cells.length =
      bytesAt (applyAll before (copyWrites p ctx)) w.addr w.cells.length)
    (copiesInside : ∀ w ∈ copyWrites p ctx, w.limit < top)
    (retInside : ret + messageLength ctx < top) :
    CredentialsSent mem top ret p ctx ↔ CredentialsFit mem ret p ctx := by
  have plain := redisAuthKeyGen_plain obtained
  have copied {w : Write Byte} (member : w ∈ copyWrites p ctx) (noNul : (0 : Byte) ∉ w.cells) :
      stringAt mem top w.addr = some w.cells ↔ mem (w.addr + w.cells.length) = 0 :=
    stringAt_eq_some_iff noNul ((kept w member).trans (bytesAt_applyAll apart member))
      (copiesInside w member)
  have idLen := @copied ⟨p.redisIdLen, ctx.redisIdLen⟩ (by simp [copyWrites]) plain.redisIdLen.1
  have id := @copied ⟨p.redisId, ctx.redisId⟩ (by simp [copyWrites]) plain.redisId.1
  have pwLen := @copied ⟨p.redisPwLen, ctx.redisPwLen⟩ (by simp [copyWrites]) plain.redisPwLen.1
  have pw := @copied ⟨p.redisPw, ctx.redisPw⟩ (by simp [copyWrites]) plain.redisPw.1
  dsimp only at idLen id pwLen pw
  have noNul := concatenated_noNul plain
  have length := length_concatenated ctx
  have encoded := concatenated_eq_respAuth_iff plain
  constructor
  · intro sent
    -- all four strings have been read, so the message is their concatenation
    have message := sent.message
    simp only [genSksAuthMsg, sent.redisIdLen, sent.redisId, sent.redisPwLen, sent.redisPw,
      Option.bind_eq_bind, Option.bind_some, Option.some.injEq] at message
    obtain ⟨idLenUsual, pwLenUsual⟩ := encoded.mp message
    have fits := sent.fits
    have last := sent.sent
    rw [← message] at fits last
    rw [sentAuthMsg_eq_some_iff noNul (by rwa [length]), length] at last
    rw [length] at fits
    exact ⟨idLen.mp sent.redisIdLen, id.mp sent.redisId, pwLen.mp sent.redisPwLen,
      pw.mp sent.redisPw, last, idLenUsual, pwLenUsual, fits⟩
  · intro fit
    have message := encoded.mpr ⟨fit.redisIdLen, fit.redisPwLen⟩
    have idLenRead := idLen.mpr fit.redisIdLenEnd
    have idRead := id.mpr fit.redisIdEnd
    have pwLenRead := pwLen.mpr fit.redisPwLenEnd
    have pwRead := pw.mpr fit.redisPwEnd
    refine ⟨idLenRead, idRead, pwLenRead, pwRead, ?_, ?_, ?_, ?_⟩
    · simp only [copyWrites, copySizes, List.forall₂_cons, Nat.le_refl, List.Forall₂.nil, and_self]
    · simp only [genSksAuthMsg, idLenRead, idRead, pwLenRead, pwRead, Option.bind_eq_bind,
        Option.bind_some, message]
    · rw [← message, length]
      exact fit.short
    · rw [← message, sentAuthMsg_eq_some_iff noNul (by rwa [length]), length]
      exact fit.messageEnd

/-! ## A user called alice -/

/-- `*2`, `$2`, `OK`, `*2`, `$5`, `alice`, `$6`, `secret` -/
def aliceReply : List Byte :=
  [42, 50] ++ crlf ++ [36, 50] ++ crlf ++ [79, 75] ++ crlf ++ [42, 50] ++ crlf ++
    [36, 53] ++ crlf ++ [97, 108, 105, 99, 101] ++ crlf ++
    [36, 54] ++ crlf ++ [115, 101, 99, 114, 101, 116] ++ crlf

def aliceCTX : NaClCTX :=
  ⟨[36, 53], [97, 108, 105, 99, 101], [36, 54], [115, 101, 99, 114, 101, 116]⟩

def aliceStrings : DescStrings := ⟨16, 32, 48, 64⟩

theorem redisAuthKeyGen_aliceReply : redisAuthKeyGen aliceReply = .ok aliceCTX := by decide

def aliceMemory (fill : Byte) : Memory :=
  applyAll (fun _ => fill) (copyWrites aliceStrings aliceCTX)

theorem apart_aliceStrings : (copyWrites aliceStrings aliceCTX).Pairwise Apart := by decide

theorem aliceStrings_inside : ∀ w ∈ copyWrites aliceStrings aliceCTX, w.limit < 128 := by decide

theorem credentialsSent_alice : CredentialsSent (aliceMemory 0) 128 80 aliceStrings aliceCTX :=
  (@credentialsSent_iff aliceReply aliceCTX (fun _ => 0) (aliceMemory 0) 128 80 aliceStrings
    redisAuthKeyGen_aliceReply apart_aliceStrings (fun _ _ => rfl) aliceStrings_inside
    (by decide)).mpr
  ⟨by decide, by decide, by decide, by decide, by decide, by decide, by decide, by decide⟩

/-- On a heap with an `A` behind the copies. -/
theorem not_credentialsSent :
    ¬ ∀ (response : List Byte) (ctx : NaClCTX) (before mem : Memory) (top ret : Nat)
      (p : DescStrings), redisAuthKeyGen response = .ok ctx → (copyWrites p ctx).Pairwise Apart →
      (∀ w ∈ copyWrites p ctx, bytesAt mem w.addr w.cells.length =
        bytesAt (applyAll before (copyWrites p ctx)) w.addr w.cells.length) →
      (∀ w ∈ copyWrites p ctx, w.limit < top) → ret + messageLength ctx < top →
      CredentialsSent mem top ret p ctx := by
  intro sent
  have run := sent aliceReply aliceCTX (fun _ => 65) (aliceMemory 65) 128 80 aliceStrings
    redisAuthKeyGen_aliceReply apart_aliceStrings (fun _ _ => rfl) aliceStrings_inside (by decide)
  exact absurd run.redisIdLen (by decide +kernel)

end SandboxTEE.HostDesc
