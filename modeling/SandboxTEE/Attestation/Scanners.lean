import SandboxTEE.Attestation.Response

/-! # Where the scanners of the response read past their texts

`my_memmem` finds the first occurrence of a needle, or leaves the haystack (`memmemLoop_spec`).
`my_urldecode` decodes every percent-encoding, and reads on behind a `%` at the end of its text
(`urldecodeLoop_ok_iff`).
-/

namespace SandboxTEE.Attestation

open SandboxTEE.Lib
open SandboxTEE.Stdlib

/-! ## `my_memmem` -/


/-- The needle is nowhere in the haystack.  Its first byte does not stand where it would just fit,
    but it does behind. -/
structure Overruns (needle haystack : List Byte) : Prop where
  absent : firstOccurrence needle haystack = none
  fits : needle.length ≤ haystack.length
  notLast : haystack[haystack.length - needle.length]? ≠ needle.head?
  begun : ∃ i, haystack.length - needle.length < i ∧ i < haystack.length ∧
    haystack[i]? = needle.head?

section Memmem

variable {pt : Byte} {tail rest : List Byte} {k : Nat}

theorem prefix_head (occurs : pt :: tail <+: rest.drop k) : rest[k]? = some pt := by
  obtain ⟨behind, same⟩ := occurs
  have head : (rest.drop k)[0]? = some pt := by rw [← same]; rfl
  rwa [List.getElem?_drop, Nat.add_zero] at head

theorem prefix_fits {needle : List Byte} (occurs : needle <+: rest.drop k) (inside : k ≤ rest.length) :
    k + needle.length ≤ rest.length := by
  have fits := occurs.length_le
  rw [List.length_drop] at fits
  omega

/-- `myMemchr` yields the first of the bytes. -/
theorem myMemchr_eq_some (found : myMemchr rest pt = some k) :
    rest[k]? = some pt ∧ ∀ j < k, rest[j]? ≠ some pt := by
  obtain ⟨inside, here, first⟩ := List.findIdx?_eq_some_iff_getElem.mp found
  refine ⟨?_, fun j before same => ?_⟩
  · rw [List.getElem?_eq_getElem inside, eq_of_beq here]
  · rw [List.getElem?_eq_getElem (by omega)] at same
    exact first j before (by simpa using Option.some.inj same)

theorem myMemchr_eq_none (missing : myMemchr rest pt = none) (j : Nat) : rest[j]? ≠ some pt := by
  intro same
  have absent := List.findIdx?_eq_none_iff.mp missing pt (List.mem_of_getElem? same)
  simp at absent

/-- The needle ends with the haystack at the latest. -/
theorem firstOccurrence_long (long : rest.length < (pt :: tail).length) :
    firstOccurrence (pt :: tail) rest = none := by
  refine firstOccurrence_eq_none_iff.mpr fun i inside occurs => ?_
  have fits := prefix_fits occurs inside
  omega

theorem overruns_drop (found : myMemchr rest pt = some k)
    (fits : k + (pt :: tail).length ≤ rest.length) (differs : ¬ pt :: tail <+: rest.drop k) :
    Overruns (pt :: tail) rest ↔ Overruns (pt :: tail) (rest.drop (k + 1)) := by
  obtain ⟨here, first⟩ := myMemchr_eq_some found
  have absent : firstOccurrence (pt :: tail) rest = none ↔
      firstOccurrence (pt :: tail) (rest.drop (k + 1)) = none := by
    rw [@firstOccurrence_drop _ _ (pt :: tail) rest (k + 1) (myMemchr_lt found), Option.map_eq_none_iff]
    intro j before occurs
    cases Nat.lt_succ_iff_lt_or_eq.mp before with
    | inl earlier => exact first j earlier (prefix_head occurs)
    | inr same => exact differs (same ▸ occurs)
  rw [List.length_cons] at fits
  constructor
  · rintro ⟨nowhere, -, notLast, i, behind, inside, same⟩
    simp only [List.length_cons, List.head?_cons] at notLast behind same
    -- the byte at `k` is not the last place where the needle would fit
    have early : k ≠ rest.length - (tail.length + 1) := by
      rintro rfl
      exact notLast here
    refine ⟨absent.mp nowhere, ?_, ?_, i - (k + 1), ?_, ?_, ?_⟩
    · rw [List.length_drop, List.length_cons]
      omega
    · rwa [List.length_drop, List.length_cons, List.getElem?_drop,
        show k + 1 + (rest.length - (k + 1) - (tail.length + 1)) =
          rest.length - (tail.length + 1) by omega]
    · rw [List.length_drop, List.length_cons]
      omega
    · rw [List.length_drop]
      omega
    · rwa [List.getElem?_drop, Nat.add_sub_cancel' (by omega)]
  · rintro ⟨nowhere, fits', notLast, i, behind, inside, same⟩
    simp only [List.length_drop, List.length_cons, List.getElem?_drop] at fits' notLast behind inside same
    refine ⟨absent.mpr nowhere, ?_, ?_, k + 1 + i, ?_, ?_, same⟩
    · rw [List.length_cons]
      omega
    · rwa [List.length_cons, show rest.length - (tail.length + 1) =
        k + 1 + (rest.length - (k + 1) - (tail.length + 1)) by omega]
    · rw [List.length_cons]
      omega
    · omega

theorem memmemLoop_spec (p : Nat) (rest : List Byte) :
    (Overruns (pt :: tail) rest → memmemLoop (pt :: tail) pt p rest = .error .undefined) ∧
    (¬ Overruns (pt :: tail) rest → memmemLoop (pt :: tail) pt p rest =
      .ok ((firstOccurrence (pt :: tail) rest).map (p + ·))) := by
  rw [memmemLoop]
  by_cases long : (pt :: tail).length ≤ rest.length
  · rw [if_pos long]
    split
    · next missing =>
      have absent : firstOccurrence (pt :: tail) rest = none :=
        firstOccurrence_eq_none_iff.mpr fun i _ occurs =>
          myMemchr_eq_none missing i (prefix_head occurs)
      refine ⟨fun overruns => ?_, fun _ => by rw [absent, Option.map_none]⟩
      obtain ⟨i, -, -, begun⟩ := overruns.begun
      exact absurd begun (myMemchr_eq_none missing i)
    · next k found =>
      obtain ⟨here, first⟩ := myMemchr_eq_some found
      have inside := myMemchr_lt found
      have before : ∀ j < k, ¬ pt :: tail <+: rest.drop j := fun j earlier occurs =>
        first j earlier (prefix_head occurs)
      by_cases fits : k + (pt :: tail).length ≤ rest.length
      · rw [memcmpEqual, if_pos fits]
        dsimp only [bind, Except.bind]
        by_cases occurs : pt :: tail <+: rest.drop k
        · have equal : (rest.drop k).take (pt :: tail).length = pt :: tail :=
            (List.prefix_iff_eq_take.mp occurs).symm
          have found : firstOccurrence (pt :: tail) rest = some k :=
            firstOccurrence_eq_some_iff.mpr ⟨Nat.le_of_lt inside, occurs, before⟩
          rw [equal, beq_self_eq_true, if_pos rfl, found]
          refine ⟨fun overruns => ?_, fun _ => rfl⟩
          have absent := overruns.absent
          rw [found] at absent
          cases absent
        · have unequal : ((rest.drop k).take (pt :: tail).length == pt :: tail) = false := by
            rw [beq_eq_false_iff_ne]
            exact fun same => occurs (List.prefix_iff_eq_take.mpr same.symm)
          have later := memmemLoop_spec (p + k + 1) (rest.drop (k + 1))
          rw [unequal, if_neg (by decide), overruns_drop found fits occurs]
          refine ⟨later.1, fun fine => (later.2 fine).trans (congrArg _ ?_)⟩
          rw [@firstOccurrence_drop _ _ (pt :: tail) rest (k + 1) inside, Option.map_map]
          · exact congrArg (fun f => Option.map f _) (funext fun i => by simp only [Function.comp]; omega)
          · intro j earlier
            cases Nat.lt_succ_iff_lt_or_eq.mp earlier with
            | inl earlier => exact before j earlier
            | inr same => exact same ▸ occurs
      · -- the comparison leaves the haystack
        rw [memcmpEqual, if_neg fits]
        refine ⟨fun _ => rfl, fun fine => absurd ⟨?_, long, ?_, k, ?_, inside, here⟩ fine⟩
        · refine firstOccurrence_eq_none_iff.mpr fun i bound occurs => ?_
          have fits' := prefix_fits occurs bound
          exact first i (by omega) (prefix_head occurs)
        · exact first _ (by omega)
        · omega
  · rw [if_neg long, firstOccurrence_long (Nat.lt_of_not_le long)]
    exact ⟨fun overruns => absurd overruns.fits long, fun _ => rfl⟩
termination_by rest.length
decreasing_by
  rw [List.length_drop]
  omega

end Memmem

theorem myMemmem_spec {needle : List Byte} (nonempty : needle ≠ []) (haystack : List Byte) :
    (Overruns needle haystack → myMemmem haystack needle = .error .undefined) ∧
    (¬ Overruns needle haystack →
      myMemmem haystack needle = .ok (firstOccurrence needle haystack)) := by
  cases needle with
  | nil => exact absurd rfl nonempty
  | cons pt tail =>
    have loop := @memmemLoop_spec pt tail 0 haystack
    simpa [myMemmem] using loop

/-- The first occurrence, or NULL, exactly if the needle is not empty and the search does not
    leave the haystack. -/
theorem myMemmem_eq_iff (haystack needle : List Byte) :
    myMemmem haystack needle = .ok (firstOccurrence needle haystack) ↔
      needle ≠ [] ∧ ¬ Overruns needle haystack := by
  by_cases empty : needle = []
  · subst empty
    simp [myMemmem]
  · refine ⟨fun found => ⟨empty, fun overruns => ?_⟩, fun fine => (myMemmem_spec empty haystack).2 fine.2⟩
    rw [(myMemmem_spec empty haystack).1 overruns] at found
    cases found

/-! ## `my_urldecode` -/

/-- The byte that an escape at the front of a text stands for. -/
def escape? : List Byte → Option Byte
  | c :: a :: b :: _ =>
    if c = 37 ∧ misxdigit a ∧ misxdigit b then some (16 * hexValue a + hexValue b) else none
  | _ => none

/-- A text that ends where `my_urldecode` still reads on: behind `%`, or one byte later. -/
def Cut (src : List Byte) : Prop := src = [37] ∨ ∃ a, a ≠ 0 ∧ src = [37, a]

def percentDecode (src : List Byte) : List Byte :=
  match src with
  | [] => []
  | c :: rest =>
    match escape? (c :: rest) with
    | some value => value :: percentDecode (rest.drop 2)
    | none => (if c = 43 then 32 else c) :: percentDecode rest
termination_by src.length
decreasing_by
  · simp only [List.length_drop, List.length_cons]
    omega
  · simp

section Urldecode

variable {c v : Byte} {rest src : List Byte} {len : Nat}

theorem escape?_of_ne (other : c ≠ 37) : escape? (c :: rest) = none := by
  unfold escape?
  split
  · next same =>
    cases same
    rw [if_neg fun escape => other escape.1]
  · rfl

theorem not_cut_of_ne (other : c ≠ 37) : ¬ Cut (c :: rest) := by
  rintro (same | ⟨a, -, same⟩)
  · exact other (List.cons.inj same).1
  · exact other (List.cons.inj same).1

theorem misxdigit_ne {a : Byte} (digit : misxdigit a = true) : a ≠ 0 ∧ a ≠ 37 ∧ a ≠ 13 := by
  refine ⟨?_, ?_, ?_⟩ <;>
  · rintro rfl
    revert digit
    decide

/-- An escape has its three bytes, and no other begins in it. -/
theorem escape?_eq_some (escape : escape? src = some v) :
    ∃ a b rest, src = 37 :: a :: b :: rest ∧ misxdigit a = true ∧ misxdigit b = true ∧
      v = 16 * hexValue a + hexValue b := by
  unfold escape? at escape
  split at escape
  · next c a b rest =>
    split at escape
    · next digits =>
      obtain ⟨rfl, hexA, hexB⟩ := digits
      exact ⟨a, b, rest, rfl, hexA, hexB, (Option.some.inj escape).symm⟩
    · cases escape
  · cases escape

/-- One round, where the bytes behind a `%` can be read. -/
theorem urldecodeLoop_cons (pos : 0 < len) (whole : ¬ Cut (c :: rest)) :
    urldecodeLoop len (c :: rest) = match escape? (c :: rest) with
      | some value => (value :: ·) <$> urldecodeLoop (len - 3) (rest.drop 2)
      | none => ((if c = 43 then 32 else c) :: ·) <$> urldecodeLoop (len - 1) rest := by
  rw [urldecodeLoop, if_pos pos]
  by_cases percent : c = 37
  · subst percent
    rw [if_pos rfl]
    cases rest with
    | nil => exact absurd (Or.inl rfl) whole
    | cons a rest =>
      rw [escapedBy.eq_def]
      dsimp only
      by_cases zero : a = 0
      · have none : escape? (37 :: a :: rest) = none := by
          subst zero
          cases rest <;> simp [escape?, misxdigit]
        rw [if_pos zero, none]
        rfl
      · rw [if_neg zero]
        cases rest with
        | nil => exact absurd (Or.inr ⟨a, zero, rfl⟩) whole
        | cons b rest =>
          by_cases digits : misxdigit a = true ∧ misxdigit b = true
          · have some : escape? (37 :: a :: b :: rest) =
                some (16 * hexValue a + hexValue b) := if_pos ⟨rfl, digits⟩
            dsimp only
            rw [if_pos ⟨(misxdigit_ne digits.2).1, digits⟩, some]
            rfl
          · have none : escape? (37 :: a :: b :: rest) = none := if_neg fun escape => digits escape.2
            dsimp only
            rw [if_neg fun escape => digits escape.2, none]
            rfl
  · rw [if_neg percent, escape?_of_ne percent]
    rfl

theorem urldecodeLoop_zero (none : ¬ 0 < len) : urldecodeLoop len src = .ok [] := by
  rw [urldecodeLoop.eq_def, if_neg none]

theorem urldecodeLoop_cut (pos : 0 < len) (cut : Cut src) :
    urldecodeLoop len src = .error .undefined := by
  rcases cut with rfl | ⟨a, nonzero, rfl⟩
  · rw [urldecodeLoop, if_pos pos]
    rfl
  · rw [urldecodeLoop, if_pos pos, if_pos rfl, escapedBy.eq_def]
    dsimp only
    rw [if_neg nonzero]
    rfl

variable {α β : Type} {f : α → β} {run : Except Fault α}

theorem map_eq_ok {w : β} : f <$> run = .ok w ↔ ∃ w', run = .ok w' ∧ f w' = w := by
  cases run with
  | error fault =>
    constructor
    · intro same
      cases same
    · rintro ⟨w', same, -⟩
      cases same
  | ok w' =>
    constructor
    · intro same
      cases same
      exact ⟨w', rfl, rfl⟩
    · rintro ⟨_, same, rfl⟩
      cases same
      rfl

theorem exists_map_eq_ok : (∃ w, f <$> run = .ok w) ↔ ∃ w, run = .ok w := by
  constructor
  · rintro ⟨_, mapped⟩
    obtain ⟨w, ran, _⟩ := map_eq_ok.mp mapped
    exact ⟨w, ran⟩
  · rintro ⟨w, ran⟩
    exact ⟨f w, map_eq_ok.mpr ⟨w, ran, rfl⟩⟩

/-- Inside an escape nothing is cut off and no other escape begins. -/
theorem within_escape (escape : escape? src = some v) {i : Nat} (within : 0 < i) (before : i < 3) :
    escape? (src.drop i) = none ∧ ¬ Cut (src.drop i) := by
  obtain ⟨a, b, rest, rfl, hexA, hexB, -⟩ := escape?_eq_some escape
  match i, within, before with
  | 1, _, _ => exact ⟨escape?_of_ne (misxdigit_ne hexA).2.1, not_cut_of_ne (misxdigit_ne hexA).2.1⟩
  | 2, _, _ => exact ⟨escape?_of_ne (misxdigit_ne hexB).2.1, not_cut_of_ne (misxdigit_ne hexB).2.1⟩

/-- The bytes can be read exactly if there are so many, and no `%` among them is cut off. -/
theorem urldecodeLoop_ok_iff (len : Nat) (src : List Byte) : (∃ w, urldecodeLoop len src = .ok w) ↔
      len ≤ src.length ∧ ∀ i < len, ¬ Cut (src.drop i) := by
  induction len using Nat.strongRecOn generalizing src with
  | ind len ih =>
    by_cases pos : 0 < len
    · cases src with
      | nil =>
        rw [urldecodeLoop, if_pos pos]
        refine iff_of_false ?_ fun readable => absurd readable.1 (Nat.not_le_of_lt pos)
        rintro ⟨w, ok⟩
        cases ok
      | cons c rest =>
        by_cases cut : Cut (c :: rest)
        · rw [urldecodeLoop_cut pos cut]
          refine iff_of_false ?_ fun readable => readable.2 0 pos cut
          rintro ⟨w, ok⟩
          cases ok
        · rw [urldecodeLoop_cons pos cut]
          cases escape : escape? (c :: rest) with
          | some v =>
            obtain ⟨a, b, behind, same, -⟩ := escape?_eq_some escape
            obtain ⟨rfl, rfl⟩ := List.cons.inj same
            simp only [exists_map_eq_ok, List.drop_succ_cons, List.drop_zero]
            rw [ih (len - 3) (by omega) behind]
            refine and_congr (by simp only [List.length_cons]; omega) ⟨fun whole i before => ?_,
              fun whole i before => ?_⟩
            · by_cases within : i < 3
              · by_cases zero : i = 0
                · exact zero ▸ cut
                · exact (within_escape escape (by omega) within).2
              · have behind := whole (i - 3) (by omega)
                rwa [show i = i - 3 + 3 by omega]
            · exact whole (i + 3) (by omega)
          | none =>
            rw [exists_map_eq_ok, ih (len - 1) (by omega) rest]
            refine and_congr (by simp only [List.length_cons]; omega) ⟨fun whole i before => ?_,
              fun whole i before => whole (i + 1) (by omega)⟩
            cases i with
            | zero => exact cut
            | succ i => exact whole i (by omega)
    · rw [urldecodeLoop_zero pos]
      exact iff_of_true ⟨[], rfl⟩ ⟨by omega, fun i before => absurd before (by omega)⟩

/-- Every round stores one byte.  There are less rounds than bytes exactly if an escape begins
    before the last byte. -/
theorem urldecodeLoop_length (len : Nat) (src : List Byte) : ∀ {w : List Byte},
    urldecodeLoop len src = .ok w → w.length ≤ len ∧
      (w.length < len ↔ ∃ i, i + 1 < len ∧ (escape? (src.drop i)).isSome = true) := by
  induction len using Nat.strongRecOn generalizing src with
  | ind len ih =>
    intro w run
    by_cases pos : 0 < len
    · have readable := (urldecodeLoop_ok_iff len src).mp ⟨w, run⟩
      cases src with
      | nil => exact absurd readable.1 (Nat.not_le_of_lt pos)
      | cons c rest =>
        rw [urldecodeLoop_cons pos (readable.2 0 pos)] at run
        cases escape : escape? (c :: rest) with
        | some v =>
          simp only [escape] at run
          obtain ⟨w', inner, rfl⟩ := map_eq_ok.mp run
          have later := (ih (len - 3) (by omega) _ inner).1
          rw [List.length_cons]
          refine ⟨by omega, fun less => ⟨0, by omega, by rw [List.drop_zero, escape]; rfl⟩, ?_⟩
          rintro ⟨i, before, -⟩
          omega
        | none =>
          simp only [escape] at run
          obtain ⟨w', inner, rfl⟩ := map_eq_ok.mp run
          have later := ih (len - 1) (by omega) _ inner
          rw [List.length_cons]
          refine ⟨by omega, fun less => ?_, ?_⟩
          · obtain ⟨i, before, begins⟩ := later.2.mp (by omega)
            exact ⟨i + 1, by omega, begins⟩
          · rintro ⟨i, before, begins⟩
            cases i with
            | zero =>
              rw [List.drop_zero, escape] at begins
              cases begins
            | succ i =>
              have less := later.2.mpr ⟨i, by omega, begins⟩
              omega
    · rw [urldecodeLoop_zero pos] at run
      cases run
      refine ⟨Nat.zero_le _, fun less => absurd less pos, ?_⟩
      rintro ⟨i, before, -⟩
      exact absurd (Nat.lt_of_le_of_lt (Nat.zero_le _) before) pos

theorem not_cut_of_length (long : 3 ≤ src.length) : ¬ Cut src := by
  rintro (rfl | ⟨a, -, rfl⟩)
  · simp at long
  · simp at long

/-! ### Percent-encodings -/

/-- A character of a percent-encoding: a byte for itself, or escaped by two digits, each in upper or
    lower case. -/
inductive PercentChar where
  | literal (byte : Byte) (plain : byte ≠ 37 ∧ byte ≠ 43)
  | escaped (byte : Byte) (upperHigh upperLow : Bool)

def hexDigit (n : Nat) (upper : Bool) : Byte :=
  UInt8.ofNat (if n < 10 then 48 + n else if upper then 55 + n else 87 + n)

def PercentChar.byte : PercentChar → Byte
  | literal byte _ => byte
  | escaped byte _ _ => byte

def PercentChar.text : PercentChar → List Byte
  | literal byte _ => [byte]
  | escaped byte upperHigh upperLow =>
    [37, hexDigit (byte.toNat / 16) upperHigh, hexDigit (byte.toNat % 16) upperLow]

def decodedText (encoding : List PercentChar) : List Byte := encoding.map PercentChar.byte

def encodedText (encoding : List PercentChar) : List Byte := encoding.flatMap PercentChar.text

theorem hexDigit_spec : ∀ n < 16, ∀ upper, misxdigit (hexDigit n upper) = true ∧
    hexValue (hexDigit n upper) = UInt8.ofNat n := by decide

theorem escape?_text (byte : Byte) (upperHigh upperLow : Bool) (behind : List Byte) :
    escape? (37 :: hexDigit (byte.toNat / 16) upperHigh :: hexDigit (byte.toNat % 16) upperLow ::
      behind) = some byte := by
  have bound := byte.toNat_lt
  have high := hexDigit_spec (byte.toNat / 16) (by omega) upperHigh
  have low := hexDigit_spec (byte.toNat % 16) (by omega) upperLow
  rw [escape?, if_pos ⟨rfl, high.1, low.1⟩, high.2, low.2, Option.some.injEq]
  refine UInt8.toNat_inj.mp ?_
  simp only [UInt8.toNat_add, UInt8.toNat_mul, UInt8.toNat_ofNat', UInt8.toNat_ofNat]
  omega

/-- Whatever stands behind: the encoding is decoded to what it encodes. -/
theorem urldecodeLoop_encodedText (encoding : List PercentChar) (behind : List Byte) :
    urldecodeLoop (encodedText encoding).length (encodedText encoding ++ behind) =
      .ok (decodedText encoding) := by
  induction encoding with
  | nil => exact urldecodeLoop_zero (by decide)
  | cons char encoding ih =>
    rw [encodedText, List.flatMap_cons]
    change urldecodeLoop (char.text ++ encodedText encoding).length
      (char.text ++ encodedText encoding ++ behind) = .ok (char.byte :: decodedText encoding)
    cases char with
    | literal byte plain =>
      simp only [PercentChar.text, List.cons_append, List.nil_append, List.length_cons]
      rw [urldecodeLoop_cons (by omega) (not_cut_of_ne plain.1), escape?_of_ne plain.1]
      dsimp only
      rw [Nat.add_sub_cancel, ih, if_neg plain.2]
      rfl
    | escaped byte upperHigh upperLow =>
      simp only [PercentChar.text, List.cons_append, List.nil_append, List.length_cons]
      rw [urldecodeLoop_cons (by omega) (not_cut_of_length (by simp)), escape?_text]
      dsimp only
      rw [List.drop_succ_cons, List.drop_succ_cons, List.drop_zero,
        show (encodedText encoding).length + 1 + 1 + 1 - 3 = (encodedText encoding).length from rfl, ih]
      rfl

/-! ### A field in front of a line end -/

theorem escape?_append_crlf (field behind : List Byte) :
    escape? (field ++ (crlf ++ behind)) = escape? field := by
  have ends : misxdigit 13 = false := by decide
  match field with
  | [] => exact escape?_of_ne (by decide)
  | [c] => simp [crlf, escape?, ends]
  | [c, a] => simp [crlf, escape?, ends]
  | c :: a :: b :: rest => rfl

theorem urldecodeLoop_field (field behind : List Byte) :
    urldecodeLoop field.length (field ++ (crlf ++ behind)) = .ok (percentDecode field) := by
  rw [percentDecode.eq_def]
  cases field with
  | nil => exact urldecodeLoop_zero (by decide)
  | cons c rest =>
    have long : 3 ≤ (c :: (rest ++ (crlf ++ behind))).length := by
      simp only [List.length_cons, List.length_append, crlf]
      omega
    rw [List.length_cons, List.cons_append,
      @urldecodeLoop_cons c (rest ++ (crlf ++ behind)) _ (by omega) (not_cut_of_length long),
      ← List.cons_append, escape?_append_crlf]
    dsimp only
    cases escape : escape? (c :: rest) with
    | some v =>
      obtain ⟨a, b, rest', same, -⟩ := escape?_eq_some escape
      obtain ⟨rfl, rfl⟩ := List.cons.inj same
      have later := urldecodeLoop_field rest' behind
      simp only [List.cons_append, List.drop_succ_cons, List.drop_zero, List.length_cons]
      rw [show rest'.length + 1 + 1 + 1 - 3 = rest'.length from rfl, later]
      rfl
    | none =>
      have later := urldecodeLoop_field rest behind
      dsimp only
      rw [Nat.add_sub_cancel, later]
      rfl
termination_by field.length

/-- An escape somewhere in the text. -/
def HasEscape (field : List Byte) : Prop := ∃ i, (escape? (field.drop i)).isSome = true

theorem length_percentDecode_lt (field : List Byte) :
    (percentDecode field).length < field.length ↔ HasEscape field := by
  rw [(urldecodeLoop_length _ _ (urldecodeLoop_field field [])).2]
  constructor
  · rintro ⟨i, before, begins⟩
    rw [List.drop_append_of_le_length (by omega), escape?_append_crlf] at begins
    exact ⟨i, begins⟩
  · rintro ⟨i, begins⟩
    obtain ⟨v, escape⟩ := Option.isSome_iff_exists.mp begins
    obtain ⟨a, b, rest, same, -⟩ := escape?_eq_some escape
    have length := congrArg List.length same
    simp only [List.length_drop, List.length_cons] at length
    refine ⟨i, by omega, ?_⟩
    rwa [List.drop_append_of_le_length (by omega), escape?_append_crlf]

end Urldecode

end SandboxTEE.Attestation
