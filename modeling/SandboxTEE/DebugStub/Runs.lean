import SandboxTEE.DebugStub.Packet
import SandboxTEE.Lib.Run

/-! # Reading the runs of a packet (`Packet::GetRawChar`)

A run is written out in place when its `*` is read, so in front of the read index there are no
runs any more, and what is read from there on is the expansion of the rest.  A malformed run stays as
it is, whatever is read behind it.
-/

namespace SandboxTEE.DebugStub

open SandboxTEE.Lib

/-! ## The encoding -/

/-- The runs of a payload written out, up to the first one that is malformed; `prev` is the character
    in front.  `X*N` stands for `N - 28` times `X`, where the `char` `N` is a signed number. -/
def expandUntil : Option Char8 → List Char8 → List Char8
  | _, [] => []
  | prev, ch :: rest =>
    if ch = Ch.star then
      match prev, rest with
      | some x, n :: rest =>
        if 31 ≤ n.toInt then List.replicate (n.toNat - 29) x ++ expandUntil (some x) rest else []
      | _, _ => []
    else ch :: expandUntil (some ch) rest

theorem expandUntil_plain {ch : Char8} (plain : ch ≠ Ch.star) (prev : Option Char8)
    (rest : List Char8) : expandUntil prev (ch :: rest) = ch :: expandUntil (some ch) rest := by
  cases prev <;> cases rest <;> simp [expandUntil, plain]

theorem expandUntil_append {front : List Char8} (plain : Ch.star ∉ front) (prev : Option Char8)
    (rest : List Char8) :
    expandUntil prev (front ++ rest) = front ++ expandUntil (front.getLast?.or prev) rest := by
  induction front generalizing prev with
  | nil => rfl
  | cons ch front ih =>
    rw [List.mem_cons, not_or] at plain
    rw [List.cons_append, expandUntil_plain (Ne.symm plain.1), ih plain.2, List.cons_append,
      List.getLast?_cons]
    cases front.getLast? with
    | none => rfl
    | some last => rfl

variable {n : Char8}

theorem expandUntil_run {x : Char8} (long : 31 ≤ n.toInt) (rest : List Char8) :
    expandUntil (some x) (Ch.star :: n :: rest) =
      List.replicate (n.toNat - 29) x ++ expandUntil (some x) rest := by
  simp [expandUntil, long]

theorem expandUntil_short (short : n.toInt < 31) (prev : Option Char8) (rest : List Char8) :
    expandUntil prev (Ch.star :: n :: rest) = [] := by
  have notLong := Int.not_le.mpr short
  cases prev with
  | none => simp [expandUntil]
  | some x => simp [expandUntil, notLong]

theorem expandUntil_passed {front : List Char8} (plain : Ch.star ∉ front) (short : n.toInt < 31)
    (prev : Option Char8) (rest : List Char8) :
    expandUntil prev (front ++ Ch.star :: n :: rest) = front := by
  rw [expandUntil_append plain, expandUntil_short short, List.append_nil]

theorem expandUntil_start (rest : List Char8) : expandUntil none (Ch.star :: rest) = [] := by
  simp [expandUntil]

theorem expandUntil_cut (prev : Option Char8) : expandUntil prev [Ch.star] = [] := by
  simp [expandUntil]

theorem toNat_of_long (long : 31 ≤ n.toInt) : 31 ≤ n.toNat := by
  have := n.isLt
  rw [BitVec.toInt_eq_toNat_cond] at long
  omega

namespace Packet

variable {p q : Packet} {ch : Char8}

/-! ## One call -/

/-- The packet is apart at the read index. -/
structure At (p : Packet) (front rest : List Char8) : Prop where
  data : p.data = front ++ rest
  index : p.readIndex = front.length

theorem At.start (p : Packet) : At p.rewind [] p.data := ⟨rfl, rfl⟩

variable {front rest : List Char8}

theorem At.getElem? (at_ : At p front rest) : p.data[p.readIndex]? = rest[0]? := by
  rw [at_.data, at_.index, List.getElem?_append_right (Nat.le_refl _), Nat.sub_self]

theorem getRawChar_end (at_ : At p front []) : p.getRawChar ch = ⟨false, ch, p⟩ := by
  rw [getRawChar, at_.getElem?]
  rfl

theorem getRawChar_plain {c : Char8} (at_ : At p front (c :: rest)) (plain : c ≠ Ch.star) :
    p.getRawChar ch = ⟨true, c, { p with readIndex := p.readIndex + 1 }⟩ := by
  rw [getRawChar, at_.getElem?]
  simp [plain]

/-- A malformed run is passed by its `*` only. -/
theorem getRawChar_malformed (at_ : At p front (Ch.star :: rest))
    (malformed : front = [] ∨ rest = [] ∨ ∃ n rest', rest = n :: rest' ∧ n.toInt < 31) :
    p.getRawChar ch = ⟨false, Ch.star, { p with readIndex := p.readIndex + 1 }⟩ := by
  have next : p.data[p.readIndex + 1]? = rest[0]? := by
    rw [at_.data, at_.index, List.getElem?_append_right (Nat.le_add_right _ _),
      Nat.add_sub_cancel_left, List.getElem?_cons_succ]
  rw [getRawChar, at_.getElem?]
  simp only [List.getElem?_cons_zero, if_true, next]
  rcases malformed with start | cut | ⟨n, rest', same, short⟩
  · simp [at_.index, start]
  · simp [cut]
  · have : n.toInt - 28 < 3 := by omega
    simp [same, this]

/-- What is behind the `*` then. -/
theorem At.pass {c : Char8} (at_ : At p front (c :: rest)) :
    At { p with readIndex := p.readIndex + 1 } (front ++ [c]) rest :=
  ⟨by simp [at_.data], by simp [at_.index]⟩

theorem getRawChar_run {x n : Char8} (at_ : At p (front ++ [x]) (Ch.star :: n :: rest))
    (long : 31 ≤ n.toInt) : p.getRawChar ch = ⟨true, x, { p with
      data := front ++ [x] ++ List.replicate (n.toNat - 29) x ++ rest
      readIndex := p.readIndex + 1 }⟩ := by
  have index := at_.index
  rw [List.length_append, List.length_singleton] at index
  have data : p.data = front ++ ([x] ++ Ch.star :: n :: rest) := by
    rw [at_.data, List.append_assoc]
  have last : p.data[p.readIndex - 1]?.getD Ch.nul = x := by
    rw [data, index, Nat.add_sub_cancel, List.getElem?_append_right (Nat.le_refl _)]
    simp
  have count : p.data[p.readIndex + 1]? = some n := by
    rw [data, index, List.getElem?_append_right (by omega)]
    simp [show front.length + 1 + 1 - front.length = 2 by omega]
  have front_ : p.data.take p.readIndex = front ++ [x] := by
    rw [at_.data, at_.index, List.take_left]
  have rest_ : p.data.drop (p.readIndex + 2) = rest := by
    rw [at_.data, at_.index, ← List.drop_drop, List.drop_left]
    rfl
  have notShort : ¬n.toInt - 28 < 3 := by omega
  have notStart : ¬p.readIndex + 1 < 2 := by omega
  rw [getRawChar, at_.getElem?]
  simp [count, notShort, notStart, last, front_, rest_]

variable {x n : Char8}

theorem At.run (at_ : At p (front ++ [x]) (Ch.star :: n :: rest)) (long : 31 ≤ n.toInt) :
    At { p with
      data := front ++ [x] ++ List.replicate (n.toNat - 29) x ++ rest
      readIndex := p.readIndex + 1 } (front ++ [x] ++ [x])
      (List.replicate (n.toNat - 30) x ++ rest) := by
  refine ⟨?_, by simp [at_.index]⟩
  have := toNat_of_long long
  rw [show n.toNat - 29 = n.toNat - 30 + 1 by omega, List.replicate_succ]
  simp

/-! ## Reading to the end -/

/-- The characters that the calls return, up to the first one that fails. -/
inductive Reads : Packet → List Char8 → Prop where
  | failed {p : Packet} (failed : (p.getRawChar Ch.nul).ok = false) : Reads p []
  | char {p : Packet} {chars : List Char8} (read : (p.getRawChar Ch.nul).ok = true)
      (more : Reads (p.getRawChar Ch.nul).packet chars) :
      Reads p ((p.getRawChar Ch.nul).ch :: chars)

/-- Characters that are no runs are returned as they are. -/
theorem reads_plain {mid chars : List Char8} (plain : Ch.star ∉ mid)
    (at_ : At p front (mid ++ rest))
    (later : ∀ q, At q (front ++ mid) rest → Reads q chars) : Reads p (mid ++ chars) := by
  induction mid generalizing p front with
  | nil => exact later p (by simpa using at_)
  | cons c mid ih =>
    rw [List.mem_cons, not_or] at plain
    have call := @getRawChar_plain _ Ch.nul _ _ _ at_ (Ne.symm plain.1)
    have more : Reads { p with readIndex := p.readIndex + 1 } (mid ++ chars) :=
      ih plain.2 at_.pass (by simpa using later)
    have reads := @Reads.char p (mid ++ chars) (by rw [call]) (by rwa [call])
    rwa [call] at reads

/-- In front of the read index there are no runs any more. -/
theorem reads_expandUntil (at_ : At p front rest) (plain : Ch.star ∉ front) :
    Reads p (expandUntil front.getLast? rest) := by
  induction size : rest.length using Nat.strongRecOn generalizing p front rest with
  | ind m ih =>
    cases rest with
    | nil => exact .failed (by rw [getRawChar_end at_])
    | cons c rest =>
      rw [List.length_cons] at size
      by_cases star : c = Ch.star
      · subst star
        rcases front.eq_nil_or_concat' with rfl | ⟨front, x, rfl⟩
        · rw [List.getLast?_nil, expandUntil_start]
          exact .failed (by rw [getRawChar_malformed at_ (.inl rfl)])
        · cases rest with
          | nil =>
            rw [expandUntil_cut]
            exact .failed (by rw [getRawChar_malformed at_ (.inr (.inl rfl))])
          | cons n rest =>
            rw [List.length_cons] at size
            by_cases long : 31 ≤ n.toInt
            · have call := @getRawChar_run _ Ch.nul _ _ _ _ at_ long
              have other : Ch.star ≠ x := by
                rintro rfl
                simp at plain
              have before : Ch.star ∉ front := by
                intro member
                exact plain (List.mem_append_left [x] member)
              have copies (k : Nat) : Ch.star ∉ List.replicate k x := by
                intro member
                exact other (List.eq_of_mem_replicate member)
              have last : (front ++ [x] ++ [x] ++ List.replicate (n.toNat - 30) x).getLast? =
                  some x := by
                have joined : [x] ++ List.replicate (n.toNat - 30) x =
                    List.replicate (n.toNat - 30 + 1) x := rfl
                rw [List.append_assoc, joined, List.getLast?_append, List.getLast?_replicate]
                rfl
              -- the one that is returned, the copies behind it, and then the rest
              have more := reads_plain (copies (n.toNat - 30)) (at_.run long)
                fun q behind => ih rest.length (by omega) behind (by simp [before, other, copies]) rfl
              have reads := @Reads.char p _ (by rw [call]) (by rw [call]; exact more)
              have := toNat_of_long long
              rw [last, call] at reads
              rw [List.getLast?_concat, expandUntil_run long,
                show n.toNat - 29 = n.toNat - 30 + 1 by omega, List.replicate_succ]
              exact reads
            · have short := Int.not_le.mp long
              rw [expandUntil_short short]
              exact .failed (by rw [getRawChar_malformed at_ (.inr (.inr ⟨n, rest, rfl, short⟩))])
      · rw [expandUntil_plain star]
        have call := @getRawChar_plain _ Ch.nul _ _ _ at_ star
        have more := ih rest.length (by omega) at_.pass (by simp [plain, Ne.symm star]) rfl
        have reads := @Reads.char p _ (by rw [call]) (by rwa [call])
        rw [call] at reads
        simpa using reads

/-! ## Any other reading -/

/-- What is in front of the read index: no runs; or a malformed one that the reading has passed, and
    that stays.  At the end nothing changes any more. -/
inductive Settled : List Char8 → List Char8 → Prop where
  | plain {front rest : List Char8} (plain : Ch.star ∉ front) : Settled front rest
  | atEnd {front : List Char8} : Settled front []
  | start {front rest : List Char8} : Settled (Ch.star :: front) rest
  | short {front rest : List Char8} {n : Char8} (plain : Ch.star ∉ front) (short : n.toInt < 31) :
      Settled (front ++ [Ch.star]) (n :: rest)
  | passed {front mid rest : List Char8} {n : Char8} (plain : Ch.star ∉ front)
      (short : n.toInt < 31) : Settled (front ++ Ch.star :: n :: mid) rest

/-- The packet still stands for the payload. -/
structure StandsFor (payload : List Char8) (p : Packet) : Prop where
  same : expandUntil none p.data = expandUntil none payload
  settled : ∃ front rest, At p front rest ∧ Settled front rest

variable {payload : List Char8}

theorem StandsFor.rewind (stands : StandsFor payload p) : StandsFor payload p.rewind where
  same := stands.same
  settled := ⟨[], p.data, .start p, .plain List.not_mem_nil⟩

/-- After a character that is no run of its own. -/
theorem Settled.pass {c : Char8} (settled : Settled front (c :: rest)) (other : c ≠ Ch.star) :
    Settled (front ++ [c]) rest := by
  cases settled with
  | plain plain => exact .plain (by simp [plain, Ne.symm other])
  | start => exact .start
  | @short front _ _ plain short =>
    rw [List.append_assoc]
    exact .passed plain short
  | @passed front mid _ n plain short =>
    rw [List.append_assoc]
    exact .passed plain short

theorem Settled.malformed (settled : Settled front (Ch.star :: rest))
    (malformed : front = [] ∨ rest = [] ∨ ∃ n rest', rest = n :: rest' ∧ n.toInt < 31) :
    Settled (front ++ [Ch.star]) rest := by
  rcases malformed with rfl | rfl | ⟨n, rest', rfl, short⟩
  · exact .start
  · exact .atEnd
  · cases settled with
    | plain plain => exact .short plain short
    | start => exact .start
    | @short front _ _ _ long => exact absurd long (by decide)
    | @passed front mid _ n plain short =>
      rw [List.append_assoc]
      exact .passed plain short

/-- After a run that is written out, both for what is read then and for the expansion. -/
theorem Settled.run (settled : Settled (front ++ [x]) (Ch.star :: n :: rest))
    (long : 31 ≤ n.toInt) :
    Settled (front ++ [x] ++ [x]) (List.replicate (n.toNat - 30) x ++ rest) ∧
      expandUntil none (front ++ [x] ++ List.replicate (n.toNat - 29) x ++ rest) =
        expandUntil none (front ++ [x] ++ Ch.star :: n :: rest) := by
  have joined : [x] ++ List.replicate (n.toNat - 30) x = List.replicate (n.toNat - 29) x := by
    have := toNat_of_long long
    rw [show n.toNat - 29 = n.toNat - 30 + 1 by omega]
    rfl
  generalize whole : front ++ [x] = all at settled
  cases settled with
  | plain plain =>
    have other : Ch.star ≠ x := by
      rintro rfl
      exact plain (whole ▸ List.mem_append_right front (List.mem_singleton_self _))
    have last : all.getLast? = some x := by rw [← whole, List.getLast?_concat]
    have copies : Ch.star ∉ List.replicate (n.toNat - 29) x := by
      intro member
      exact other (List.eq_of_mem_replicate member)
    have behind : (all ++ List.replicate (n.toNat - 29) x).getLast? = some x := by
      rw [← joined, ← List.append_assoc, ← whole, List.getLast?_append, List.getLast?_replicate,
        List.getLast?_concat]
      split <;> rfl
    refine ⟨.plain (by simp [plain, other]), ?_⟩
    rw [expandUntil_append (by simp only [List.mem_append, plain, copies, or_self,
        not_false_eq_true]), behind, expandUntil_append plain, last]
    simp only [Option.some_or, expandUntil_run long, List.append_assoc]
  | start =>
    refine ⟨.start, ?_⟩
    simp only [List.cons_append, expandUntil_start]
  | short _ short => exact absurd short (by decide)
  | passed plain short =>
    refine ⟨?_, ?_⟩
    · rw [List.append_assoc]
      exact .passed plain short
    · simp only [List.append_assoc, List.cons_append, expandUntil_passed plain short]

theorem StandsFor.getRawChar (stands : StandsFor payload p) (ch : Char8) :
    StandsFor payload (p.getRawChar ch).packet := by
  obtain ⟨same, front, rest, at_, settled⟩ := stands
  cases rest with
  | nil =>
    rw [getRawChar_end at_]
    exact ⟨same, front, [], at_, settled⟩
  | cons c rest =>
    by_cases star : c = Ch.star
    · subst star
      by_cases malformed : front = [] ∨ rest = [] ∨ ∃ n rest', rest = n :: rest' ∧ n.toInt < 31
      · rw [getRawChar_malformed at_ malformed]
        exact ⟨same, front ++ [Ch.star], rest, at_.pass, settled.malformed malformed⟩
      · -- so there are a character in front and a count behind
        simp only [not_or, not_exists, not_and] at malformed
        obtain ⟨some_, more, long⟩ := malformed
        obtain ⟨front, x, rfl⟩ := (front.eq_nil_or_concat').resolve_left some_
        obtain ⟨n, rest, rfl⟩ := List.exists_cons_of_ne_nil more
        have long := Int.not_lt.mp (long n rest rfl)
        obtain ⟨settled', expansion⟩ := settled.run long
        rw [getRawChar_run at_ long]
        refine ⟨?_, _, _, at_.run long, settled'⟩
        rw [← same, at_.data, ← expansion]
    · rw [getRawChar_plain at_ star]
      exact ⟨same, front ++ [c], rest, at_.pass, settled.pass star⟩

end Packet

end SandboxTEE.DebugStub
