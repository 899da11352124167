import SandboxTEE.DebugStub.Runs

/-! # The sequence number of a packet (`ParseSequence`)

A number is two digits and a colon in front of the payload.  Runs have no part in it: behind a
digit a run stands for the digit again, which is no colon.
-/

namespace SandboxTEE.DebugStub

/-- The sequence number of a payload: two digits with a colon behind them. -/
def sequenceNumber : List Char8 → Option Nat
  | first :: second :: colon :: _ =>
    match nibbleToInt first, nibbleToInt second with
    | some high, some low => if colon = Ch.colon then some (16 * high + low) else none
    | _, _ => none
  | _ => none

variable {ch : Char8} {body rest : List Char8}

variable {digit : Nat}

theorem nibbleToInt_lt (read : nibbleToInt ch = some digit) : digit < 16 := by
  rw [nibbleToInt] at read
  split at read
  · cases read
    omega
  · split at read
    · cases read
      omega
    · split at read
      · cases read
        omega
      · cases read

/-- A digit is neither a `*` nor a colon. -/
theorem ne_of_nibbleToInt (read : nibbleToInt ch = some digit) : ch ≠ Ch.star ∧ ch ≠ Ch.colon := by
  constructor
  · rintro rfl
    cases read
  · rintro rfl
    cases read

variable {first : Char8}

theorem sequenceNumber_of_first (other : nibbleToInt first = none) :
    sequenceNumber (first :: body) = none := by
  match body with
  | [] => rfl
  | [_] => rfl
  | second :: colon :: body => simp [sequenceNumber, other]

variable {second : Char8}

theorem sequenceNumber_of_second (other : nibbleToInt second = none) :
    sequenceNumber (first :: second :: body) = none := by
  match body with
  | [] => rfl
  | colon :: body => simp [sequenceNumber, other]

theorem sequenceNumber_of_star (star : ∀ next rest', rest = next :: rest' → next = Ch.star) :
    sequenceNumber (first :: rest) = none := by
  cases rest with
  | nil => rfl
  | cons second rest =>
    rw [star second rest rfl]
    exact sequenceNumber_of_second rfl

theorem sequenceNumber_of_star' (star : ∀ next rest', rest = next :: rest' → next = Ch.star) :
    sequenceNumber (first :: second :: rest) = none := by
  cases rest with
  | nil => rfl
  | cons colon rest =>
    rw [star colon rest rfl, sequenceNumber]
    split
    · exact if_neg (by decide)
    · rfl

namespace Packet

variable {p : Packet} {x : Int}

theorem getRawChar_setSequence : (p.setSequence x).getRawChar ch =
    { p.getRawChar ch with packet := (p.getRawChar ch).packet.setSequence x } := by
  rw [getRawChar, getRawChar, setSequence]
  dsimp only
  split
  · rfl
  · split
    · split
      · rfl
      · split
        · rfl
        · split
          · rfl
          · rfl
    · rfl

theorem getRawChar_seq : (p.getRawChar ch).packet.seq = p.seq := by
  have same := @getRawChar_setSequence ch p p.seq
  rw [show p.setSequence p.seq = p from rfl] at same
  exact congrArg (·.packet.seq) same

theorem getWord8_setSequence :
    (p.setSequence x).getWord8 = (p.getWord8.1, p.getWord8.2.setSequence x) := by
  rw [getWord8, getWord8]
  simp only [getRawChar_setSequence]
  split
  · rfl
  · split
    · rfl
    · split
      · rfl
      · rfl

/-- The number in the packet makes no other difference. -/
theorem parseSequence_setSequence : ∃ y, (p.setSequence x).parseSequence = p.parseSequence.setSequence y := by
  rw [parseSequence, parseSequence, getWord8_setSequence]
  match p.getWord8 with
  | (none, q) => exact ⟨x, rfl⟩
  | (some seq, q) =>
    simp only [getRawChar_setSequence]
    split
    · exact ⟨seq.toNat, rfl⟩
    · exact ⟨x, rfl⟩

/-- Behind a character a run stands for that character again. -/
theorem getRawChar_behind {front rest : List Char8} {c : Char8} (at_ : At p (front ++ [c]) rest) :
    (∃ next rest', rest = next :: rest' ∧ next ≠ Ch.star ∧
        p.getRawChar ch = ⟨true, next, { p with readIndex := p.readIndex + 1 }⟩) ∨
      (∀ next rest', rest = next :: rest' → next = Ch.star) ∧
        ((p.getRawChar ch).ok = false ∨
          (p.getRawChar ch).ch = c ∧
            ∃ rest', At (p.getRawChar ch).packet (front ++ [c] ++ [c]) (c :: rest')) := by
  cases rest with
  | nil =>
    refine .inr ⟨?_, .inl ?_⟩
    · intro next rest' same
      cases same
    · rw [getRawChar_end at_]
  | cons next rest =>
    by_cases star : next = Ch.star
    · subst star
      refine .inr ⟨fun next rest' same => (List.cons.inj same).1.symm, ?_⟩
      cases rest with
      | nil =>
        rw [getRawChar_malformed at_ (.inr (.inl rfl))]
        exact .inl rfl
      | cons n rest =>
        by_cases short : n.toInt < 31
        · rw [getRawChar_malformed at_ (.inr (.inr ⟨n, rest, rfl, short⟩))]
          exact .inl rfl
        · rw [getRawChar_run at_ (Int.not_lt.mp short)]
          have count := toNat_of_long (Int.not_lt.mp short)
          have behind := at_.run (Int.not_lt.mp short)
          rw [show n.toNat - 30 = n.toNat - 31 + 1 by omega, List.replicate_succ,
            List.cons_append] at behind
          exact .inr ⟨rfl, _, behind⟩
    · exact .inl ⟨next, rest, rfl, star, getRawChar_plain at_ star⟩

variable {q : Packet}

theorem getWord8_reads {r : Packet} {first second : Char8}
    (read : p.getRawChar Ch.nul = ⟨true, first, q⟩)
    (read' : q.getRawChar Ch.nul = ⟨true, second, r⟩) :
    p.getWord8 = (match nibbleToInt first, nibbleToInt second with
      | some high, some low => some (BitVec.ofNat 8 (high * 16 + low))
      | _, _ => none, r) := by
  rw [getWord8, read]
  simp only [read', Bool.true_eq_false, if_false]
  cases nibbleToInt first with
  | none => rfl
  | some high =>
    cases nibbleToInt second with
    | none => rfl
    | some low => rfl

theorem parseSequence_seq_of_none (word : p.getWord8.1 = none) : p.parseSequence.seq = p.seq := by
  have kept : p.getWord8.2.seq = p.seq := by
    have same := @getWord8_setSequence p p.seq
    rw [show p.setSequence p.seq = p from rfl] at same
    exact congrArg (·.2.seq) same
  rw [parseSequence]
  cases read : p.getWord8 with
  | mk number q =>
    rw [read] at word kept
    cases word
    exact kept

theorem parseSequence_seq_of_some {number : Char8} (word : p.getWord8 = (some number, q)) :
    p.parseSequence.seq =
      if (q.getRawChar Ch.nul).ok ∧ (q.getRawChar Ch.nul).ch = Ch.colon then (number.toNat : Int)
      else p.seq := by
  have kept : q.seq = p.seq := by
    have same := @getWord8_setSequence p p.seq
    rw [show p.setSequence p.seq = p from rfl, word] at same
    exact congrArg (·.2.seq) same
  rw [parseSequence, word]
  dsimp only
  split
  · rfl
  · exact getRawChar_seq.trans kept

theorem parseSequence_seq (seq : Int) (body : List Char8) :
    ((Packet.mk seq body 0).parseSequence).seq =
      ((sequenceNumber body).map Int.ofNat).getD seq := by
  match body with
  | [] => rfl
  | first :: body =>
    have start : At ⟨seq, first :: body, 0⟩ [] (first :: body) := ⟨rfl, rfl⟩
    by_cases star : first = Ch.star
    · subst star
      rw [sequenceNumber_of_first rfl, parseSequence_seq_of_none]
      · rfl
      · rw [getWord8, getRawChar_malformed start (.inl rfl)]
        rfl
    · have read : getRawChar ⟨seq, first :: body, 0⟩ Ch.nul = ⟨true, first, ⟨seq, first :: body, 1⟩⟩ :=
        getRawChar_plain start star
      have behind := @getRawChar_behind Ch.nul ⟨seq, first :: body, 1⟩ [] _ first start.pass
      cases behind with
      | inl plain =>
        obtain ⟨second, rest, rfl, star', read'⟩ := plain
        have word := getWord8_reads read read'
        cases digit : nibbleToInt first with
        | none =>
          rw [sequenceNumber_of_first digit, parseSequence_seq_of_none (by rw [word, digit])]
          rfl
        | some high =>
          cases digit' : nibbleToInt second with
          | none =>
            rw [sequenceNumber_of_second digit', parseSequence_seq_of_none (by rw [word, digit, digit'])]
            rfl
          | some low =>
            rw [digit, digit'] at word
            rw [parseSequence_seq_of_some word]
            have high_lt := nibbleToInt_lt digit
            have low_lt := nibbleToInt_lt digit'
            cases @getRawChar_behind Ch.nul _ [first] _ second start.pass.pass with
            | inl plain =>
              obtain ⟨colon, rest, rfl, _, read''⟩ := plain
              rw [read'', sequenceNumber, digit, digit']
              by_cases here : colon = Ch.colon
              · simp [here]
                omega
              · simp [here]
            | inr run =>
              rw [sequenceNumber_of_star' run.1]
              apply if_neg
              rintro ⟨ok, isColon⟩
              cases run.2 with
              | inl failed => exact Bool.noConfusion (failed.symm.trans ok)
              | inr again => exact (ne_of_nibbleToInt digit').2 (again.1.symm.trans isColon)
      | inr run =>
        rw [sequenceNumber_of_star run.1]
        cases run.2 with
        | inl failed =>
          apply parseSequence_seq_of_none
          rw [getWord8, read]
          simp [failed]
        | inr again =>
          obtain ⟨same, rest', at_⟩ := again
          cases read' : getRawChar ⟨seq, first :: body, 1⟩ Ch.nul with
          | mk ok second q =>
            rw [read'] at same at_
            subst same
            cases ok with
            | false =>
              apply parseSequence_seq_of_none
              rw [getWord8, read]
              simp [read']
            | true =>
              have word := getWord8_reads read read'
              cases digit : nibbleToInt second with
              | none => exact parseSequence_seq_of_none (by rw [word, digit])
              | some high =>
                -- the run gives the digit once more, and it is no colon
                rw [digit] at word
                rw [parseSequence_seq_of_some word, getRawChar_plain at_ star]
                exact if_neg fun colon => (ne_of_nibbleToInt digit).2 colon.2

end Packet

theorem getSequence_eq_none_iff {p : Packet} : p.getSequence = none ↔ p.seq = -1 := by
  rw [Packet.getSequence]
  split
  · next set => exact ⟨fun same => (by cases same), fun unset => absurd unset set⟩
  · next unset => exact ⟨fun _ => not_not.mp unset, fun _ => rfl⟩

theorem parseSequence_eq_new (seq : Int) (body : List Char8)
    (own : sequenceNumber body = none → seq = -1) :
    (Packet.mk seq body 0).parseSequence = (Packet.mk (-1) body 0).parseSequence := by
  obtain ⟨y, same⟩ := @Packet.parseSequence_setSequence ⟨-1, body, 0⟩ seq
  have seqs : (Packet.mk seq body 0).parseSequence.seq =
      (Packet.mk (-1) body 0).parseSequence.seq := by
    rw [Packet.parseSequence_seq, Packet.parseSequence_seq]
    cases number : sequenceNumber body with
    | none => exact own number
    | some n => rfl
  change (Packet.mk seq body 0).parseSequence = _ at same
  rw [same] at seqs ⊢
  rw [show y = (Packet.mk (-1) body 0).parseSequence.seq from seqs]
  rfl

theorem getSequence_parseSequence (body : List Char8) :
    (Packet.mk (-1) body 0).parseSequence.getSequence = (sequenceNumber body).map Int.ofNat := by
  rw [Packet.getSequence, Packet.parseSequence_seq]
  cases sequenceNumber body with
  | none => rfl
  | some n =>
    apply if_pos
    simp

end SandboxTEE.DebugStub
