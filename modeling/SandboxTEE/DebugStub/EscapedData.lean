import SandboxTEE.DebugStub.Packet
import Mathlib.Data.List.Infix

/-! # Escaped data (`Packet::AddEscapedData`)

The remote serial protocol decodes a payload in two passes: the runs `X*N` are expanded first,
then `}` and the character behind it become one character.  `AddEscapedData` sends a character
that needs an escape as two and then a run of it as a run of the second of the two, so four
such characters in a row come out wrong (`addEscapedData_decodes_iff`); all else is sent as it
should be.
-/

namespace SandboxTEE.DebugStub

/-! ## The protocol's decoder -/

/-- A run `X*N` stands for `N - 28` characters `X`; the first of them is before the `*`. -/
def expandRuns : Option Char8 → List Char8 → Option (List Char8)
  | _, [] => some []
  | prev, ch :: rest =>
    if ch = Ch.star then
      match prev, rest with
      | some x, n :: rest =>
        if 29 ≤ n.toNat then (List.replicate (n.toNat - 29) x ++ ·) <$> expandRuns (some x) rest
        else none
      | _, _ => none
    else (ch :: ·) <$> expandRuns (some ch) rest

def unescape : List Char8 → Option (List Char8)
  | [] => some []
  | ch :: rest =>
    if ch = Ch.brace then
      match rest with
      | [] => none
      | escaped :: rest => ((escaped ^^^ 0x20) :: ·) <$> unescape rest
    else (ch :: ·) <$> unescape rest

def decodeEscaped (payload : List Char8) : Option (List Char8) :=
  (expandRuns none payload).bind unescape

/-! ## What is sent -/

/-- The characters sent for `ch` itself. -/
def escapeChar (ch : Char8) : List Char8 :=
  if Packet.needsEscape ch then [Ch.brace, ch ^^^ 0x20] else [ch]

/-- The last of them, which a run repeats. -/
def lastSent (ch : Char8) : Char8 := if Packet.needsEscape ch then ch ^^^ 0x20 else ch

/-- The length of the run sent behind `ch`; zero when none is. -/
def runSent (ch : Char8) (data : List Char8) : Nat :=
  if 3 ≤ Packet.runCount ch data then Packet.clipCount (Packet.runCount ch data) else 0

def runChars (count : Nat) : List Char8 :=
  if 3 ≤ count then [Ch.star, BitVec.ofNat 8 (count + 29)] else []

/-- The characters sent for `data`, the first `skip` of which have been sent. -/
def escaped : List Char8 → Nat → List Char8
  | [], _ => []
  | _ :: data, skip + 1 => escaped data skip
  | ch :: data, 0 =>
    escapeChar ch ++ runChars (runSent ch data) ++ escaped data (runSent ch data)

/-- The same with the runs written out. -/
def expanded : List Char8 → Nat → List Char8
  | [], _ => []
  | _ :: data, skip + 1 => expanded data skip
  | ch :: data, 0 =>
    escapeChar ch ++ List.replicate (runSent ch data) (lastSent ch) ++
      expanded data (runSent ch data)

/-- What the decoder makes of it. -/
def decoded : List Char8 → Nat → List Char8
  | [], _ => []
  | _ :: data, skip + 1 => decoded data skip
  | ch :: data, 0 =>
    ch :: List.replicate (runSent ch data) (lastSent ch) ++ decoded data (runSent ch data)

theorem runSent_cases (ch : Char8) (data : List Char8) :
    runSent ch data = 0 ∧ Packet.runCount ch data < 3 ∨
      3 ≤ runSent ch data ∧ runSent ch data ≤ Packet.runCount ch data ∧
        runSent ch data ≠ 6 ∧ runSent ch data ≠ 7 := by
  unfold runSent
  split
  · next long =>
    refine Or.inr ?_
    unfold Packet.clipCount
    split <;> omega
  · next short => exact Or.inl ⟨rfl, by omega⟩

theorem runCount_le (ch : Char8) (data : List Char8) : Packet.runCount ch data ≤ 97 :=
  Nat.min_le_left _ _

variable (data : List Char8)

theorem addEscapedLoop_data (skip : Nat) (p : Packet) :
    (p.addEscapedLoop data skip).data = p.data ++ escaped data skip := by
  induction data generalizing skip p with
  | nil => simp [Packet.addEscapedLoop, escaped]
  | cons ch data ih =>
    cases skip with
    | succ skip => exact ih skip p
    | zero =>
      have head : (if Packet.needsEscape ch then
          (p.addRawChar Ch.brace).addRawChar (ch ^^^ 0x20) else p.addRawChar ch).data =
          p.data ++ escapeChar ch := by
        unfold escapeChar
        split <;> simp
      rw [Packet.addEscapedLoop, escaped]
      rcases runSent_cases ch data with ⟨none, short⟩ | ⟨long, le, -⟩
      · rw [if_neg (by omega), ih, head, none]
        simp [runChars]
      · have sent : runSent ch data = Packet.clipCount (Packet.runCount ch data) :=
          if_pos (by omega)
        rw [if_pos (by omega), ih, ← sent, Packet.addRawChar_data, Packet.addRawChar_data, head]
        simp [runChars, long]

/-! ## Decoding it -/

variable {ch : Char8}

theorem needsEscape_cases (needs : Packet.needsEscape ch = true) :
    ch = Ch.brace ∨ ch = Ch.hash ∨ ch = Ch.dollar ∨ ch = Ch.star := by
  simpa [Packet.needsEscape, or_assoc] using needs

theorem needsEscape_xor (needs : Packet.needsEscape ch = true) :
    Packet.needsEscape (ch ^^^ 0x20) = false := by
  rcases needsEscape_cases needs with rfl | rfl | rfl | rfl <;> decide

theorem needsEscape_lastSent (ch : Char8) : Packet.needsEscape (lastSent ch) = false := by
  unfold lastSent
  split
  · next needs => exact needsEscape_xor needs
  · next plain => simpa using plain

theorem ne_of_plain {c : Char8} (plain : Packet.needsEscape ch = false)
    (special : Packet.needsEscape c = true) : ch ≠ c := by
  rintro rfl
  rw [plain] at special
  cases special

theorem expandRuns_plain (plain : ch ≠ Ch.star) (prev : Option Char8) (rest : List Char8) :
    expandRuns prev (ch :: rest) = (ch :: ·) <$> expandRuns (some ch) rest := by
  rw [expandRuns.eq_def]
  exact if_neg plain

/-- What is sent for one character leaves that character, as sent, before the next. -/
theorem expandRuns_escapeChar (ch : Char8) (prev : Option Char8) (rest : List Char8) :
    expandRuns prev (escapeChar ch ++ rest) =
      (escapeChar ch ++ ·) <$> expandRuns (some (lastSent ch)) rest := by
  have last := ne_of_plain (needsEscape_lastSent ch) (c := Ch.star) rfl
  unfold escapeChar lastSent at *
  split
  · next needs =>
    rw [if_pos needs] at last
    rw [List.cons_append, List.cons_append, List.nil_append, expandRuns_plain (by decide),
      expandRuns_plain last]
    simp [Function.comp_def]
  · next plain =>
    rw [if_neg plain] at last
    rw [List.cons_append, List.nil_append, expandRuns_plain last]
    rfl

theorem expandRuns_run {x : Char8} {count : Nat} (long : 3 ≤ count) (le : count ≤ 97)
    (rest : List Char8) : expandRuns (some x) (runChars count ++ rest) =
      (List.replicate count x ++ ·) <$> expandRuns (some x) rest := by
  have value : (BitVec.ofNat 8 (count + 29)).toNat = count + 29 := by
    rw [BitVec.toNat_ofNat]
    omega
  rw [runChars, if_pos long, List.cons_append, List.cons_append, List.nil_append, expandRuns,
    if_pos rfl]
  simp only [value]
  rw [if_pos (by omega), Nat.add_sub_cancel]

theorem expandRuns_escaped (skip : Nat) (prev : Option Char8) :
    expandRuns prev (escaped data skip) = some (expanded data skip) := by
  induction data generalizing skip prev with
  | nil => rfl
  | cons ch data ih =>
    cases skip with
    | succ skip => exact ih skip prev
    | zero =>
      rw [escaped, expanded, List.append_assoc, expandRuns_escapeChar]
      have le := runCount_le ch data
      rcases runSent_cases ch data with ⟨none, -⟩ | ⟨long, short, -⟩
      · simp [none, runChars, ih]
      · rw [expandRuns_run long (by omega), ih]
        simp

theorem unescape_plain (plain : ch ≠ Ch.brace) (rest : List Char8) :
    unescape (ch :: rest) = (ch :: ·) <$> unescape rest := by
  rw [unescape.eq_def]
  exact if_neg plain

theorem unescape_escapeChar (ch : Char8) (rest : List Char8) :
    unescape (escapeChar ch ++ rest) = (ch :: ·) <$> unescape rest := by
  unfold escapeChar
  split
  · rw [List.cons_append, List.cons_append, List.nil_append, unescape, if_pos rfl,
      BitVec.xor_assoc, BitVec.xor_self, BitVec.xor_zero]
  · next plain =>
    exact unescape_plain (ne_of_plain (by simpa using plain) rfl) rest

theorem unescape_replicate (plain : ch ≠ Ch.brace) (n : Nat) (rest : List Char8) :
    unescape (List.replicate n ch ++ rest) = (List.replicate n ch ++ ·) <$> unescape rest := by
  induction n with
  | zero => simp
  | succ n ih =>
    rw [List.replicate_succ, List.cons_append, unescape_plain plain, ih]
    simp [Function.comp_def]

theorem unescape_expanded (skip : Nat) :
    unescape (expanded data skip) = some (decoded data skip) := by
  induction data generalizing skip with
  | nil => rfl
  | cons ch data ih =>
    cases skip with
    | succ skip => exact ih skip
    | zero =>
      rw [expanded, decoded, List.append_assoc, unescape_escapeChar,
        unescape_replicate (ne_of_plain (needsEscape_lastSent ch) rfl), ih]
      rfl

theorem decodeEscaped_escaped :
    decodeEscaped (escaped data 0) = some (decoded data 0) := by
  rw [decodeEscaped, expandRuns_escaped, Option.bind_some, unescape_expanded]

/-! ## When that is the data -/

/-- Four equal characters in a row that each need an escape. -/
def HasEscapedRun (data : List Char8) : Prop :=
  ∃ c, Packet.needsEscape c = true ∧ List.replicate 4 c <:+: data

theorem take_runCount (ch : Char8) (data : List Char8) {n : Nat}
    (le : n ≤ Packet.runCount ch data) : data.take n = List.replicate n ch := by
  induction data generalizing n with
  | nil =>
    have : n = 0 := by simpa [Packet.runCount] using le
    simp [this]
  | cons c data ih =>
    cases n with
    | zero => rfl
    | succ n =>
      rw [Packet.runCount, List.takeWhile_cons] at le
      split at le
      · next same =>
        have same : c = ch := by simpa using same
        rw [List.length_cons] at le
        rw [List.take_succ_cons, same, List.replicate_succ, ih (by
          rw [Packet.runCount]
          omega)]
      · simp at le

/-- The run behind `ch` is as long as `replicate` says. -/
theorem replicate_runSent (ch : Char8) (data : List Char8) :
    data = List.replicate (runSent ch data) ch ++ data.drop (runSent ch data) := by
  have le : runSent ch data ≤ Packet.runCount ch data := by
    rcases runSent_cases ch data with ⟨none, -⟩ | ⟨-, le, -⟩ <;> omega
  rw [← take_runCount ch data le, List.take_append_drop]

/-- A run that starts behind copies of another character does not use them. -/
theorem infix_of_infix_replicate_append {c x : Char8} (ne : c ≠ x) (n : Nat) {k : Nat}
    (rest : List Char8) (within : List.replicate (k + 1) c <:+: List.replicate n x ++ rest) :
    List.replicate (k + 1) c <:+: rest := by
  induction n with
  | zero => exact within
  | succ n ih =>
    rw [List.replicate_succ (n := n), List.cons_append, List.infix_cons_iff] at within
    cases within with
    | inl start =>
      rw [List.replicate_succ] at start
      exact absurd (List.cons_prefix_cons.mp start).1 ne
    | inr within => exact ih within

theorem runCount_of_prefix {data : List Char8} (start : List.replicate 3 ch <+: data) :
    3 ≤ Packet.runCount ch data := by
  obtain ⟨rest, rfl⟩ := start
  simp [Packet.runCount, List.replicate_succ]

theorem hasEscapedRun_cons (ch : Char8) (data : List Char8) : HasEscapedRun (ch :: data) ↔
      (runSent ch data ≠ 0 ∧ Packet.needsEscape ch = true) ∨
        HasEscapedRun (data.drop (runSent ch data)) := by
  have split := replicate_runSent ch data
  constructor
  · rintro ⟨c, special, within⟩
    by_cases same : ch = c
    · subst same
      rcases runSent_cases ch data with ⟨none, short⟩ | ⟨long, -⟩
      · refine Or.inr ⟨ch, special, ?_⟩
        rw [none, List.drop_zero]
        cases List.infix_cons_iff.mp within with
        | inl start =>
          have := runCount_of_prefix (List.cons_prefix_cons.mp start).2
          omega
        | inr within => exact within
      · exact Or.inl ⟨by omega, special⟩
    · rw [split] at within
      refine Or.inr ⟨c, special, ?_⟩
      exact infix_of_infix_replicate_append (Ne.symm same) (runSent ch data + 1) _ within
  · rintro (⟨some, special⟩ | ⟨c, special, within⟩)
    · refine ⟨ch, special, ?_⟩
      rcases runSent_cases ch data with ⟨none, -⟩ | ⟨long, le, -⟩
      · exact absurd none some
      · have start := take_runCount ch data (n := 3) (by omega)
        refine (List.prefix_iff_eq_take.mpr ?_).isInfix
        rw [List.length_replicate, List.take_succ_cons, start, List.replicate_succ]
    · refine ⟨c, special, within.trans ?_⟩
      exact ((List.drop_suffix _ _).trans (List.suffix_cons _ _)).isInfix

theorem lastSent_eq_iff (ch : Char8) : lastSent ch = ch ↔ Packet.needsEscape ch = false := by
  unfold lastSent
  split
  · next needs =>
    rw [needs]
    refine iff_of_false ?_ Bool.noConfusion
    rcases needsEscape_cases needs with rfl | rfl | rfl | rfl <;> decide
  · next plain => simpa using plain

theorem decoded_eq_iff (skip : Nat) :
    decoded data skip = data.drop skip ↔ ¬ HasEscapedRun (data.drop skip) := by
  induction data generalizing skip with
  | nil => simp [decoded, HasEscapedRun, List.replicate_succ]
  | cons ch data ih =>
    cases skip with
    | succ skip => exact ih skip
    | zero =>
      rw [List.drop_zero, hasEscapedRun_cons, decoded, not_or, ← ih]
      constructor
      · intro same
        rw [List.cons_append, List.cons.injEq] at same
        have same := same.2.trans (replicate_runSent ch data)
        have parts := List.append_inj same (by simp)
        refine ⟨?_, parts.2⟩
        rintro ⟨some, special⟩
        have last : lastSent ch = ch := by
          have := List.replicate_inj.mp parts.1
          exact this.2.resolve_left some
        rw [(lastSent_eq_iff ch).mp last] at special
        cases special
      · rintro ⟨plain, same⟩
        rw [same, List.cons_append]
        conv_rhs => rw [replicate_runSent ch data]
        congr 2
        rcases Nat.eq_zero_or_pos (runSent ch data) with none | some
        · rw [none, List.replicate_zero, List.replicate_zero]
        · rw [(lastSent_eq_iff ch).mpr (by simpa using fun h => plain ⟨by omega, h⟩)]

/-! ## The characters sent -/

/-- Neither `#` nor `$` is sent. -/
theorem escaped_clean (skip : Nat) :
    ∀ c ∈ escaped data skip, c ≠ Ch.hash ∧ c ≠ Ch.dollar := by
  induction data generalizing skip with
  | nil => simp [escaped]
  | cons ch data ih =>
    cases skip with
    | succ skip => exact ih skip
    | zero =>
      intro c hc
      rw [escaped, List.mem_append, List.mem_append] at hc
      rcases hc with (head | run) | rest
      · unfold escapeChar at head
        split at head
        · next needs =>
          rcases needsEscape_cases needs with rfl | rfl | rfl | rfl <;>
            (simp only [List.mem_cons, List.not_mem_nil, or_false] at head
             rcases head with rfl | rfl <;> decide)
        · next plain =>
          have plain : Packet.needsEscape c = false := by
            simpa [List.mem_singleton.mp head] using plain
          exact ⟨ne_of_plain plain rfl, ne_of_plain plain rfl⟩
      · rcases runSent_cases ch data with ⟨none, -⟩ | ⟨long, le, six, seven⟩
        · simp [none, runChars] at run
        · have bound := runCount_le ch data
          simp only [runChars, if_pos long, List.mem_cons, List.not_mem_nil, or_false] at run
          rcases run with rfl | rfl
          · decide
          · -- the lengths of the runs `#` and `$` would stand for are not sent
            have value : (BitVec.ofNat 8 (runSent ch data + 29)).toNat = runSent ch data + 29 := by
              rw [BitVec.toNat_ofNat]
              omega
            constructor <;> intro same <;>
              (rw [same] at value
               simp only [Ch.hash, Ch.dollar, BitVec.reduceToNat] at value
               omega)
      · exact ih _ c rest

/-- For every byte string: what `AddEscapedData` appends has no raw `#` or `$`, and it decodes
    to the string exactly when no four equal characters that need an escape stand in a row. -/
theorem addEscapedData_decodes_iff (p : Packet) (data : List Char8) :
    ∃ payload, (p.addEscapedData data).data = p.data ++ payload ∧
      ((∀ c ∈ payload, c ≠ Ch.hash ∧ c ≠ Ch.dollar) ∧ decodeEscaped payload = some data ↔
        ¬ HasEscapedRun data) := by
  refine ⟨escaped data 0, addEscapedLoop_data data 0 p, ?_⟩
  rw [decodeEscaped_escaped, Option.some.injEq]
  exact ⟨fun h => (decoded_eq_iff data 0).mp h.2,
    fun h => ⟨escaped_clean data 0, (decoded_eq_iff data 0).mpr h⟩⟩

/-- Four `#` are sent as `}` and a run of four `^C`. -/
theorem addEscapedData_four_hashes :
    let payload := (Packet.new.addEscapedData (List.replicate 4 Ch.hash)).data
    payload = [Ch.brace, 0x03, Ch.star, Ch.space] ∧
      decodeEscaped payload ≠ some (List.replicate 4 Ch.hash) := by
  decide

end SandboxTEE.DebugStub
