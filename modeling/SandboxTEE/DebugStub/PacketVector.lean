import SandboxTEE.DebugStub.Runs

/-! # The vector of a packet (`debug_stub/packet.cc`)

`data_` is larger than the payload: a NUL stands behind the payload, and up to 64 characters more.
The functions are as in the source here, with every access checked: characters are read from the
payload, and written to the payload or the NUL behind it.
-/

namespace SandboxTEE.DebugStub

open SandboxTEE.Lib

def minPad : Nat := 1

def growSize : Nat := 64

structure PacketVector where
  seq : Int
  data : List Char8
  readIndex : Nat
  writeIndex : Nat

/-! ## Memory -/

/-- `data_.resize(n)` -/
def resize (data : List Char8) (n : Nat) : List Char8 :=
  data.take n ++ List.replicate (n - data.length) 0

/-- `data_[i] = ch` -/
def put (data : List Char8) (i : Nat) (ch : Char8) : Option (List Char8) :=
  if i < data.length then some (data.set i ch) else none

/-- `memmove`, in front of the last character. -/
def memmove (data : List Char8) (dest src len : Nat) : Option (List Char8) :=
  if dest + len ≤ data.length - 1 ∧ src + len ≤ data.length - 1 then
    some (data.take dest ++ (data.drop src).take len ++ data.drop (dest + len))
  else none

/-- `memset`, in front of the last character. -/
def memset (data : List Char8) (dest : Nat) (ch : Char8) (len : Nat) : Option (List Char8) :=
  if dest + len ≤ data.length - 1 then
    some (data.take dest ++ List.replicate len ch ++ data.drop (dest + len))
  else none

namespace PacketVector

/-! ## The source's functions; `none` is an access outside -/

def clear (v : PacketVector) : PacketVector :=
  { v with data := List.replicate growSize 0, readIndex := 0, writeIndex := 0 }

def new : PacketVector := clear ⟨-1, [], 0, 0⟩

def rewind (v : PacketVector) : PacketVector := { v with readIndex := 0 }

def addRawChar (v : PacketVector) (ch : Char8) : Option PacketVector := do
  let data :=
    if v.data.length ≤ v.writeIndex + minPad then resize v.data (v.data.length + growSize)
    else v.data
  let data ← put data v.writeIndex ch
  let data ← put data (v.writeIndex + 1) Ch.nul
  pure { v with data, writeIndex := v.writeIndex + 1 }

/-- A character of the payload. -/
def payloadChar (v : PacketVector) (i : Nat) : Option Char8 :=
  if i < v.writeIndex then v.data[i]? else none

/-- With what is in `*ch` before and after the call. -/
def getRawChar (v : PacketVector) (ch : Char8) : Option (Bool × Char8 × PacketVector) :=
  if v.writeIndex ≤ v.readIndex then some (false, ch, v)
  else do
    let ch ← v.payloadChar v.readIndex
    let v := { v with readIndex := v.readIndex + 1 }
    if ch = Ch.star then
      if v.readIndex < 2 then some (false, ch, v)
      else if v.writeIndex ≤ v.readIndex then some (false, ch, v)
      else do
        let n ← v.payloadChar v.readIndex
        if n.toInt - 28 < 3 then some (false, ch, v)
        else do
          let cnt := (n.toInt - 28).toNat
          let data := resize v.data (v.writeIndex + cnt - 3 + 1)
          let data ← memmove data (v.readIndex + cnt - 3) v.readIndex (v.writeIndex - v.readIndex)
          let ch ← { v with data }.payloadChar (v.readIndex - 2)
          let data ← memset data (v.readIndex - 1) ch (cnt - 1)
          let data ← put data (data.length - 1) Ch.nul
          some (true, ch, { v with data, writeIndex := data.length - 1 })
    else some (true, ch, v)

end PacketVector

/-! ## Memory in parts -/

variable {front mid rest data : List Char8} {v : PacketVector} {p : Packet} {ch : Char8}

theorem put_append (c : Char8) : put (front ++ ch :: rest) front.length c =
    some (front ++ c :: rest) := by
  rw [put, if_pos (by simp), List.set_append_right _ _ (Nat.le_refl _), Nat.sub_self,
    List.set_cons_zero]

theorem resize_append {n : Nat} (enough : front.length ≤ n) :
    ∃ later, resize (front ++ rest) n = front ++ later ∧ later.length = n - front.length := by
  refine ⟨rest.take (n - front.length) ++
    List.replicate (n - (front ++ rest).length) 0, ?_, ?_⟩
  · rw [resize, List.take_append, List.take_of_length_le enough, List.append_assoc]
  · simp only [List.length_append, List.length_take, List.length_replicate]
    omega

/-- The middle is moved to the right, up to the last character. -/
theorem memmove_append {k : Nat} {later : List Char8} (room : later.length = k + 1) :
    ∃ gap last, memmove (front ++ mid ++ later) (front.length + k) front.length mid.length =
      some (front ++ gap ++ mid ++ [last]) ∧ gap.length = k := by
  have end_ : (later.drop k).length = 1 := by
    rw [List.length_drop, room, Nat.add_sub_cancel_left]
  obtain ⟨last, single⟩ := List.length_eq_one_iff.mp end_
  refine ⟨(mid ++ later).take k, last, ?_, by simp; omega⟩
  have behind : (front ++ mid ++ later).drop (front.length + k + mid.length) = [last] := by
    rw [show front.length + k + mid.length = (front ++ mid).length + k by
      rw [List.length_append]; omega, ← List.drop_drop, List.drop_left, single]
  have gap : (front ++ mid ++ later).take (front.length + k) = front ++ (mid ++ later).take k := by
    rw [List.append_assoc, List.take_append, List.take_of_length_le (Nat.le_add_right _ _),
      Nat.add_sub_cancel_left]
  have moved : ((front ++ mid ++ later).drop front.length).take mid.length = mid := by
    rw [List.append_assoc, List.drop_left, List.take_left]
  rw [memmove, if_pos (by simp only [List.length_append, room]; omega), behind, gap, moved]

/-- What is in the middle is filled, when something is behind it. -/
theorem memset_append (c : Char8) (some_ : rest ≠ []) :
    memset (front ++ mid ++ rest) front.length c mid.length =
      some (front ++ List.replicate mid.length c ++ rest) := by
  have positive := List.length_pos_of_ne_nil some_
  rw [memset, if_pos (by simp only [List.length_append]; omega)]
  simp

/-! ## The vector holds the packet -/

/-- The payload, a NUL, and whatever is behind. -/
structure Holds (v : PacketVector) (p : Packet) : Prop where
  seq : v.seq = p.seq
  readIndex : v.readIndex = p.readIndex
  writeIndex : v.writeIndex = p.data.length
  data : ∃ padding, v.data = p.data ++ Ch.nul :: padding

namespace Holds

theorem new : Holds .new .new := ⟨rfl, rfl, rfl, List.replicate 63 0, rfl⟩

theorem rewind (holds : Holds v p) : Holds v.rewind p.rewind :=
  ⟨holds.seq, rfl, holds.writeIndex, holds.data⟩

theorem addRawChar (holds : Holds v p) (ch : Char8) :
    ∃ v', v.addRawChar ch = some v' ∧ Holds v' (p.addRawChar ch) := by
  obtain ⟨padding, data⟩ := holds.data
  -- in either case there is room behind the NUL
  have grown : ∃ c later, (if v.data.length ≤ v.writeIndex + minPad then
      resize v.data (v.data.length + growSize) else v.data) = p.data ++ Ch.nul :: c :: later := by
    split
    · obtain ⟨later, resized, length⟩ := @resize_append v.data [] _
        (Nat.le_add_right v.data.length growSize)
      rw [List.append_nil] at resized
      rw [Nat.add_sub_cancel_left] at length
      have some_ : 0 < (padding ++ later).length := by
        rw [List.length_append, length, growSize]
        omega
      obtain ⟨c, behind, same⟩ := List.exists_cons_of_length_pos some_
      refine ⟨c, behind, ?_⟩
      rw [resized, data, List.append_assoc, List.cons_append, same]
    · next room =>
      have some_ : 0 < padding.length := by
        simp only [holds.writeIndex, data, minPad, List.length_append, List.length_cons] at room
        omega
      obtain ⟨c, behind, same⟩ := List.exists_cons_of_length_pos some_
      exact ⟨c, behind, by rw [data, same]⟩
  obtain ⟨c, later, grown⟩ := grown
  have first := @put_append p.data (c :: later) Ch.nul ch
  have second := @put_append (p.data ++ [ch]) later c Ch.nul
  simp only [List.length_append, List.length_singleton, List.append_assoc, List.cons_append,
    List.nil_append] at second
  refine ⟨⟨v.seq, p.data ++ ch :: Ch.nul :: later, v.readIndex, v.writeIndex + 1⟩, ?_,
    holds.seq, holds.readIndex, ?_, later, ?_⟩
  · simp only [PacketVector.addRawChar, grown]
    simp only [holds.writeIndex, first, second, Option.bind_eq_bind, Option.bind_some,
      Option.pure_def]
  · simp [holds.writeIndex]
  · simp

theorem payloadChar (holds : Holds v p) (i : Nat) : v.payloadChar i = p.data[i]? := by
  obtain ⟨padding, data⟩ := holds.data
  rw [PacketVector.payloadChar, holds.writeIndex, data]
  split
  · next inside => rw [List.getElem?_append_left inside]
  · next outside => rw [List.getElem?_eq_none (Nat.not_lt.mp outside)]

theorem pass (holds : Holds v p) : Holds { v with readIndex := p.readIndex + 1 }
    { p with readIndex := p.readIndex + 1 } :=
  ⟨holds.seq, rfl, holds.writeIndex, holds.data⟩

theorem getRawChar_run {x n : Char8} (holds : Holds v p)
    (at_ : p.At (front ++ [x]) (Ch.star :: n :: rest)) (long : 31 ≤ n.toInt) :
    ∃ v', v.getRawChar ch = some (true, x, v') ∧ Holds v' { p with
      data := front ++ [x] ++ List.replicate (n.toNat - 29) x ++ rest
      readIndex := p.readIndex + 1 } := by
  have count : (n.toInt - 28).toNat = n.toNat - 28 := by
    have := n.isLt
    rw [BitVec.toInt_eq_toNat_cond] at long ⊢
    omega
  have enough := toNat_of_long long
  have index := at_.index
  have star : p.data[p.readIndex]? = some Ch.star := at_.getElem?
  have next : p.data[p.readIndex + 1]? = some n := at_.pass.getElem?
  have length : p.data.length = p.readIndex + 1 + (n :: rest).length := by
    rw [at_.data, index]
    simp
    omega
  -- the vector grows
  obtain ⟨padding, data⟩ := holds.data
  obtain ⟨later, resized, grown⟩ := @resize_append p.data (Ch.nul :: padding)
    (p.data.length + (n.toNat - 28) - 3 + 1) (by omega)
  -- the count and what is behind it move to the right
  have parts : p.data = front ++ [x] ++ [Ch.star] ++ n :: rest := by simp [at_.data]
  have width : (front ++ [x] ++ [Ch.star]).length = p.readIndex + 1 := by simp [index]
  obtain ⟨gap, last, moved, room⟩ := @memmove_append (front ++ [x] ++ [Ch.star])
    (n :: rest) (n.toNat - 28 - 3) later (by omega)
  rw [width, ← parts] at moved
  -- the characters in front of it are filled
  have filled := @memset_append (front ++ [x]) ([Ch.star] ++ gap ++ [n])
    (rest ++ [last]) x (by simp)
  have copies : ([Ch.star] ++ gap ++ [n]).length = n.toNat - 28 - 1 := by
    simp [room]
    omega
  rw [copies, ← index] at filled
  have filled : memset (front ++ [x] ++ [Ch.star] ++ gap ++ n :: rest ++ [last]) p.readIndex x
      (n.toNat - 28 - 1) =
        some (front ++ [x] ++ List.replicate (n.toNat - 28 - 1) x ++ rest ++ [last]) := by
    simpa using filled
  have ended := @put_append (front ++ [x] ++ List.replicate (n.toNat - 28 - 1) x ++ rest) [] last
    Ch.nul
  refine ⟨⟨v.seq, front ++ [x] ++ List.replicate (n.toNat - 28 - 1) x ++ rest ++ [Ch.nul],
    p.readIndex + 1, (front ++ [x] ++ List.replicate (n.toNat - 28 - 1) x ++ rest).length⟩, ?_,
    holds.seq, rfl, by simp; omega, [], by simp; omega⟩
  have notEnd : ¬p.data.length ≤ p.readIndex := by omega
  have notStart : ¬p.readIndex + 1 < 2 := by
    rw [index]
    simp
  have notCut : ¬p.data.length ≤ p.readIndex + 1 := by
    rw [length]
    simp
  have notShort : ¬n.toInt - 28 < 3 := by omega
  have here := holds.payloadChar p.readIndex
  have behind := holds.pass.payloadChar (p.readIndex + 1)
  rw [star] at here
  rw [holds.writeIndex, next] at behind
  have dest : p.readIndex + 1 + (n.toNat - 28) - 3 = p.readIndex + 1 + (n.toNat - 28 - 3) := by
    omega
  have rest_ : p.data.length - (p.readIndex + 1) = (n :: rest).length := by omega
  rw [PacketVector.getRawChar, holds.writeIndex, holds.readIndex, if_neg notEnd, here]
  simp only [Option.bind_eq_bind, Option.bind_some, if_true, if_neg notStart, if_neg notCut,
    behind, if_neg notShort, count]
  rw [data, resized, dest, rest_, moved]
  have returned : PacketVector.payloadChar ⟨v.seq, front ++ [x] ++ [Ch.star] ++ gap ++ n :: rest ++ [last],
      p.readIndex + 1, p.data.length⟩ (p.readIndex + 1 - 2) = some x := by
    have inside : p.readIndex + 1 - 2 < p.data.length := by omega
    rw [PacketVector.payloadChar, if_pos inside, index]
    simp
  have ending (chars : List Char8) (c : Char8) : (chars ++ [c]).length - 1 = chars.length := by simp
  simp only [Option.bind_some, returned, Nat.add_sub_cancel, filled, ending, ended]

theorem getRawChar (holds : Holds v p) (ch : Char8) :
    ∃ v', v.getRawChar ch = some ((p.getRawChar ch).ok, (p.getRawChar ch).ch, v') ∧
      Holds v' (p.getRawChar ch).packet := by
  by_cases more : p.data.length ≤ p.readIndex
  · -- nothing is left
    have missing : p.data[p.readIndex]? = none := List.getElem?_eq_none more
    rw [Packet.getRawChar, missing]
    refine ⟨v, ?_, holds⟩
    rw [PacketVector.getRawChar, if_pos (by rw [holds.writeIndex, holds.readIndex]; exact more)]
  · have inside := Nat.not_le.mp more
    have notEnd : ¬v.writeIndex ≤ v.readIndex := by
      rwa [holds.writeIndex, holds.readIndex]
    obtain ⟨front, c, rest, at_⟩ : ∃ front c rest, p.At front (c :: rest) := by
      refine ⟨p.data.take p.readIndex, p.data[p.readIndex], p.data.drop (p.readIndex + 1), ?_, ?_⟩
      · rw [List.getElem_cons_drop, List.take_append_drop]
      · rw [List.length_take_of_le (Nat.le_of_lt inside)]
    have here := holds.payloadChar v.readIndex
    rw [holds.readIndex, at_.getElem?, List.getElem?_cons_zero] at here
    by_cases star : c = Ch.star
    · subst star
      have next := holds.payloadChar (p.readIndex + 1)
      rw [at_.pass.getElem?] at next
      by_cases malformed : front = [] ∨ rest = [] ∨ ∃ n rest', rest = n :: rest' ∧ n.toInt < 31
      · rw [Packet.getRawChar_malformed at_ malformed]
        refine ⟨_, ?_, holds.pass⟩
        rw [PacketVector.getRawChar, if_neg notEnd]
        have index := at_.index
        have length : p.data.length = p.readIndex + (rest.length + 1) := by
          rw [at_.data, index, List.length_append, List.length_cons]
        rcases malformed with rfl | rfl | ⟨n, rest', rfl, short⟩
        · have start : p.readIndex = 0 := index
          rw [start] at here
          simp [holds.readIndex, here, start]
        · have atEnd : v.writeIndex ≤ p.readIndex + 1 := by
            rw [holds.writeIndex, length]
            exact Nat.le_refl _
          simp [holds.readIndex, here, atEnd]
        · have short : n.toInt - 28 < 3 := by omega
          have next : v.payloadChar (p.readIndex + 1) = some n := next
          have count : { v with readIndex := p.readIndex + 1 }.payloadChar (p.readIndex + 1) =
            some n := next
          simp [holds.readIndex, here, count, short]
      · simp only [not_or, not_exists, not_and] at malformed
        obtain ⟨some_, behind, long⟩ := malformed
        obtain ⟨front, x, rfl⟩ := (front.eq_nil_or_concat').resolve_left some_
        obtain ⟨n, rest, rfl⟩ := List.exists_cons_of_ne_nil behind
        have long := Int.not_lt.mp (long n rest rfl)
        rw [Packet.getRawChar_run at_ long]
        exact holds.getRawChar_run at_ long
    · rw [Packet.getRawChar_plain at_ star]
      refine ⟨_, ?_, holds.pass⟩
      rw [PacketVector.getRawChar, if_neg notEnd]
      simp [holds.readIndex, here, star]

end Holds

/-! ## Reading -/

/-- The characters that the calls return, up to the first one that fails. -/
inductive PacketVector.Reads : PacketVector → List Char8 → Prop where
  | failed {v v' : PacketVector} {ch : Char8}
      (failed : v.getRawChar Ch.nul = some (false, ch, v')) : Reads v []
  | char {v v' : PacketVector} {ch : Char8} {chars : List Char8}
      (read : v.getRawChar Ch.nul = some (true, ch, v')) (more : Reads v' chars) :
      Reads v (ch :: chars)

theorem PacketVector.Reads.unique {chars chars' : List Char8} (reads : v.Reads chars)
    (reads' : v.Reads chars') : chars = chars' := by
  induction reads generalizing chars' with
  | failed failed =>
    cases reads' with
    | failed _ => rfl
    | char read _ =>
      rw [failed] at read
      cases read
  | char read _ ih =>
    cases reads' with
    | failed failed =>
      rw [read] at failed
      cases failed
    | char read' more =>
      rw [read] at read'
      cases read'
      rw [ih more]

theorem Holds.reads {chars : List Char8} (holds : Holds v p) (reads : p.Reads chars) :
    v.Reads chars := by
  induction reads generalizing v with
  | failed failed =>
    obtain ⟨v', call, _⟩ := holds.getRawChar Ch.nul
    rw [failed] at call
    exact .failed call
  | char read _ ih =>
    obtain ⟨v', call, holds'⟩ := holds.getRawChar Ch.nul
    rw [read] at call
    exact .char call (ih holds')

/-- What a reader does; it gives the variable for the character. -/
inductive Call where
  | getRawChar (ch : Char8)
  | rewind

def PacketVector.step (v : PacketVector) : Call → Option PacketVector
  | .getRawChar ch => (v.getRawChar ch).map fun result => result.2.2
  | .rewind => some v.rewind

theorem Holds.step {payload : List Char8} (holds : Holds v p) (stands : p.StandsFor payload)
    (call : Call) : ∃ v' p', v.step call = some v' ∧ Holds v' p' ∧ p'.StandsFor payload := by
  cases call with
  | getRawChar ch =>
    obtain ⟨v', run, holds'⟩ := holds.getRawChar ch
    refine ⟨v', _, ?_, holds', stands.getRawChar ch⟩
    rw [PacketVector.step, run]
    rfl
  | rewind => exact ⟨_, _, rfl, holds.rewind, stands.rewind⟩

theorem Holds.run {payload : List Char8} (calls : List Call) (holds : Holds v p)
    (stands : p.StandsFor payload) :
    ∃ v' p', calls.foldlM PacketVector.step v = some v' ∧ Holds v' p' ∧ p'.StandsFor payload := by
  induction calls generalizing v p with
  | nil => exact ⟨v, p, rfl, holds, stands⟩
  | cons call calls ih =>
    obtain ⟨u, q, stepped, holds', stands'⟩ := holds.step stands call
    obtain ⟨v', p', run, last⟩ := ih holds' stands'
    refine ⟨v', p', ?_, last⟩
    rw [List.foldlM_cons, stepped]
    exact run

/-- The packet that the characters of a payload are added to. -/
def PacketVector.ofPayload (payload : List Char8) : Option PacketVector :=
  payload.foldlM addRawChar .new

theorem Holds.ofPayload (payload : List Char8) :
    ∃ v, PacketVector.ofPayload payload = some v ∧ Holds v ⟨-1, payload, 0⟩ := by
  suffices added : ∀ front rest v, Holds v ⟨-1, front, 0⟩ →
      ∃ v', rest.foldlM PacketVector.addRawChar v = some v' ∧ Holds v' ⟨-1, front ++ rest, 0⟩ from
    added [] payload .new .new
  intro front rest
  induction rest generalizing front with
  | nil =>
    intro v holds
    exact ⟨v, rfl, by simpa using holds⟩
  | cons ch rest ih =>
    intro v holds
    obtain ⟨u, added, holds'⟩ := holds.addRawChar ch
    obtain ⟨v', run, last⟩ := ih (front ++ [ch]) u holds'
    refine ⟨v', ?_, by simpa using last⟩
    rw [List.foldlM_cons, added]
    exact run

/-- For every payload: it is read as its expansion; whatever is read and rewound before, a reading from
    the start is the same again; and no call accesses anything outside. -/
theorem getRawChar_expands (payload : List Char8) :
    ∃ v, PacketVector.ofPayload payload = some v ∧
      (∀ chars, v.Reads chars ↔ chars = expandUntil none payload) ∧
      ∀ calls : List Call, ∃ u, calls.foldlM PacketVector.step v = some u ∧
        ∀ chars, u.rewind.Reads chars ↔ chars = expandUntil none payload := by
  obtain ⟨v, added, holds⟩ := Holds.ofPayload payload
  have stands : Packet.StandsFor payload ⟨-1, payload, 0⟩ :=
    ⟨rfl, [], payload, ⟨rfl, rfl⟩, .plain List.not_mem_nil⟩
  -- from the start
  have fromStart {u : PacketVector} {q : Packet} (holds : Holds u q) (stands : q.StandsFor payload)
      (chars : List Char8) : u.rewind.Reads chars ↔ chars = expandUntil none payload := by
    have reads := Packet.reads_expandUntil (Packet.At.start q) List.not_mem_nil
    rw [List.getLast?_nil, stands.same] at reads
    constructor
    · intro other
      exact other.unique (holds.rewind.reads reads)
    · rintro rfl
      exact holds.rewind.reads reads
  refine ⟨v, added, fun chars => ?_, fun calls => ?_⟩
  · have rewound : v.rewind = v := by
      have index : v.readIndex = 0 := holds.readIndex
      rw [PacketVector.rewind, ← index]
    have start := fromStart holds stands chars
    rwa [rewound] at start
  · obtain ⟨u, q, run, holds', stands'⟩ := holds.run calls stands
    exact ⟨u, run, fromStart holds' stands'⟩

/-- Two runs, one directly behind the other, and one that the end cuts. -/
example : expandUntil none [0x61, 0x2a, 0x20, 0x2a, 0x1f, 0x62, 0x2a] =
    [0x61, 0x61, 0x61, 0x61, 0x61, 0x61, 0x62] := by decide

end SandboxTEE.DebugStub
