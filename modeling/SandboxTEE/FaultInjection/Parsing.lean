import SandboxTEE.FaultInjection.Grammar

/-! # What the parser makes of the documented grammar -/

namespace SandboxTEE.FaultInjection

open SandboxTEE.Lib
open SandboxTEE.Stdlib

/-! ## Numbers -/

/-- What stands behind an item or a number, which is hexadecimal or not. -/
def Follows (hex : Prop) (rest : List Byte) : Prop :=
  ∀ c, rest.head? = some c → c = 47 ∨ c = 43 ∨ c = 80 ∨ c = 70 ∧ ¬ hex

theorem Numeral.base_pos (n : Numeral) : 0 < n.base := by
  cases n <;> simp [base]

theorem Numeral.base_le (n : Numeral) : n.base ≤ 16 := by
  cases n <;> simp [base]

variable {n : Numeral}

theorem Numeral.base_le_of_not_hex (not : ¬ n.IsHex) : n.base ≤ 15 := by
  cases n with
  | decimal first rest | octal rest => simp [base]
  | hex upper first rest => exact absurd trivial not

theorem Numeral.text_cons (n : Numeral) : ∃ c s, n.text = c :: s ∧ c ≠ 64 := by
  have known : ∀ first : Fin 9, digitChar false (first + 1) ≠ 64 := by decide
  cases n with
  | decimal first rest => exact ⟨_, _, rfl, known first⟩
  | octal rest => exact ⟨48, _, rfl, by decide⟩
  | hex upper first rest => exact ⟨48, _, rfl, by decide⟩

variable {rest : List Byte}

theorem Follows.stops (follows : Follows n.IsHex rest) : Stops n.base rest := by
  intro c d head digit
  obtain rfl | rfl | rfl | ⟨rfl, not⟩ := follows c head
  · cases digit
  · cases digit
  · cases digit
    exact n.base_le.trans (by decide)
  · cases digit
    exact Numeral.base_le_of_not_hex not

theorem Numeral.digits_known (n : Numeral) :
    ∀ digit ∈ n.digits, digitOf digit.2 = some digit.1 ∧ digit.1 < n.base := by
  intro digit member
  cases n with
  | decimal first rest =>
    cases List.mem_cons.mp member with
    | inl first =>
      subst first
      exact ⟨digitOf_digitChar false (by omega), by simp [base]; omega⟩
    | inr later =>
      obtain ⟨d, -, rfl⟩ := List.mem_map.mp later
      exact ⟨digitOf_digitChar false (by omega), d.isLt⟩
  | octal rest =>
    cases List.mem_cons.mp member with
    | inl first =>
      subst first
      exact ⟨rfl, Nat.succ_pos 7⟩
    | inr later =>
      obtain ⟨d, -, rfl⟩ := List.mem_map.mp later
      exact ⟨digitOf_digitChar false (by omega), d.isLt⟩
  | hex upper first rest =>
    obtain ⟨d, -, rfl⟩ := List.mem_map.mp member
    exact ⟨digitOf_digitChar d.1 d.2.isLt, d.2.isLt⟩

/-- The digits of a numeral are read to their end. -/
theorem Numeral.digitLoop_eq (fits : n.value ≤ ulongMax) (follows : Follows n.IsHex rest) :
    digitLoop n.base 0 0 (n.digits.map Prod.snd ++ rest) = (n.value, 1, rest) := by
  have nonempty : n.digits ≠ [] := by cases n <;> simp [digits]
  rw [digitLoop_digits n.base_pos follows.stops n.digits 0 0 (Int.le_refl 0) n.digits_known fits,
    if_neg nonempty]
  rfl

variable {s : List Byte}

variable {c : Byte}

theorem signOf_cons (minus : c ≠ 45) (plus : c ≠ 43) : signOf (c :: s) = (false, c :: s) := by
  unfold signOf
  split
  · next same => exact absurd (List.cons.inj same).1 minus
  · next same => exact absurd (List.cons.inj same).1 plus
  · rfl

theorem baseOf_decimal (nonzero : c ≠ 48) : baseOf 0 (c :: s) = (10, c :: s) := by
  unfold baseOf
  split
  · next same => exact absurd (List.cons.inj same).1 nonzero
  · simp [nonzero]

theorem baseOf_octal (plain : s.head? ≠ some 120 ∧ s.head? ≠ some 88) :
    baseOf 0 (48 :: s) = (8, 48 :: s) := by
  cases s with
  | nil => rfl
  | cons x s =>
    simp only [List.head?_cons, ne_eq, Option.some.injEq] at plain
    simp [baseOf, plain]

theorem Numeral.signOf_text (n : Numeral) (rest : List Byte) :
    signOf ((n.text ++ rest).dropWhile isSpace) = (false, n.text ++ rest) := by
  cases n with
  | decimal first tail =>
    have known : ∀ first : Fin 9, isSpace (digitChar false (first + 1)) = false ∧
        digitChar false (first + 1) ≠ 45 ∧ digitChar false (first + 1) ≠ 43 := by decide
    obtain ⟨space, minus, plus⟩ := known first
    simp only [text, digits, List.map_cons, List.cons_append, List.dropWhile_cons, space]
    exact signOf_cons minus plus
  | octal tail => rfl
  | hex upper first tail => rfl

theorem Numeral.baseOf_text (follows : Follows n.IsHex rest) :
    baseOf 0 (n.text ++ rest) = (n.base, n.digits.map Prod.snd ++ rest) := by
  cases n with
  | decimal first tail =>
    have known : ∀ first : Fin 9, digitChar false (first + 1) ≠ 48 := by decide
    exact baseOf_decimal (known first)
  | octal tail =>
    apply baseOf_octal
    cases tail with
    | nil =>
      constructor
      · intro head
        cases follows 120 head <;> simp_all
      · intro head
        cases follows 88 head <;> simp_all
    | cons d tail =>
      have known : ∀ d : Fin 8, digitChar false d ≠ 120 ∧ digitChar false d ≠ 88 := by decide
      simpa using known d
  | hex upper first tail =>
    cases upper with
    | false => rfl
    | true => rfl

theorem strtoul_numeral (fits : n.value ≤ ulongMax) (follows : Follows n.IsHex rest) :
    strtoul (n.text ++ rest) 0 = (n.value, rest) := by
  simp only [strtoul, n.signOf_text, n.baseOf_text follows, n.digitLoop_eq fits follows]
  rfl

theorem parseNumber_eq {p : List Byte} (plain : p.head? ≠ some 64) :
    naClFaultInjectionParseNumber p = if (strtoul p 0).2 ≠ p then some (strtoul p 0) else none := by
  unfold naClFaultInjectionParseNumber
  split
  · exact absurd rfl plain
  · rfl

theorem parseNumber_numeral (fits : n.value ≤ ulongMax) (follows : Follows n.IsHex rest) :
    naClFaultInjectionParseNumber (n.text ++ rest) = some (n.value, rest) := by
  obtain ⟨c, s, text, plain⟩ := n.text_cons
  rw [parseNumber_eq (by simp [text, plain]), strtoul_numeral fits follows, if_pos]
  intro same
  have length : rest.length = (n.text ++ rest).length := congrArg List.length same
  rw [text, List.length_append, List.length_cons] at length
  omega

/-- No number starts here. -/
def NoNumber (rest : List Byte) : Prop :=
  rest = [] ∨ ∃ c tail, rest = c :: tail ∧ (c = 47 ∨ c = 80 ∨ c = 70 ∨
    c = 43 ∧ ∃ d tail', tail = d :: tail' ∧ (d = 80 ∨ d = 70))

theorem parseNumber_none (absent : NoNumber rest) : naClFaultInjectionParseNumber rest = none := by
  have stays {p : List Byte} (plain : p.head? ≠ some 64) (same : (strtoul p 0).2 = p) :
      naClFaultInjectionParseNumber p = none := by
    rw [parseNumber_eq plain, if_neg (not_not.mpr same)]
  obtain rfl | ⟨c, tail, rfl, rfl | rfl | rfl | ⟨rfl, d, tail', rfl, rfl | rfl⟩⟩ := absent
  · rfl
  · exact stays (by simp) rfl
  · exact stays (by simp) rfl
  · exact stays (by simp) rfl
  · exact stays (by simp) rfl
  · exact stays (by simp) rfl

/-! ## Items -/

def Count.parsed (c : Count) : Nat := c.number.getD uintptrMax

theorem parseNumber_count {c : Count} (sound : c.Sound) (follows : Follows c.IsHex rest) :
    naClFaultInjectionParseNumber (c.text ++ rest) = some (c.parsed, rest) := by
  cases c with
  | digits n => exact parseNumber_numeral sound.2 follows
  | forever => rfl

namespace PassOrFail

/-- The expression that the parser makes of an item. -/
def expr : PassOrFail → NaClFaultExpr
  | pass count => ⟨true, 0, count.parsed⟩
  | fail value count => ⟨false, value.elim 0 Numeral.value, count.elim 1 Count.parsed⟩

end PassOrFail

theorem parsePass_text {count : Count} (sound : count.Sound) (follows : Follows count.IsHex rest) :
    parsePass (count.text ++ rest) = ((PassOrFail.pass count).expr, rest) := by
  simp only [parsePass, parseNumber_count sound follows, Option.getD_some]
  rfl

variable {value : Option Numeral}

/-- Behind the value of an `F`. -/
theorem parseFail_value (fits : ∀ n, value = some n → n.value ≤ ulongMax) (absent : NoNumber rest)
    (follows : ∀ n, value = some n → Follows n.IsHex rest) :
    (naClFaultInjectionParseNumber (value.elim [] Numeral.text ++ rest)).getD
      (0, value.elim [] Numeral.text ++ rest) = (value.elim 0 Numeral.value, rest) := by
  cases value with
  | none =>
    rw [Option.elim_none, List.nil_append, parseNumber_none absent]
    rfl
  | some n =>
    rw [Option.elim_some, parseNumber_numeral (fits n rfl) (follows n rfl)]
    rfl

theorem parseFail_text {count : Option Count} (sound : (PassOrFail.fail value count).Sound)
    (absent : NoNumber rest) (behind : rest.head? ≠ some 47)
    (follows : Follows (PassOrFail.fail value count).EndsInHex rest) :
    parseFail (value.elim [] Numeral.text ++ (count.elim [] fun count => 47 :: count.text) ++ rest) =
      some ((PassOrFail.fail value count).expr, rest) := by
  rw [List.append_assoc]
  cases count with
  | none =>
    have follows' : ∀ n, value = some n → Follows n.IsHex rest := fun n given c head => by
      obtain slash | plus | pass | ⟨fail, not⟩ := follows c head
      · exact .inl slash
      · exact .inr (.inl plus)
      · exact .inr (.inr (.inl pass))
      · exact .inr (.inr (.inr ⟨fail, fun hex => not ⟨n, given, hex⟩⟩))
    simp only [parseFail, Option.elim_none, List.nil_append, parseFail_value sound.1 absent follows']
    split
    · exact absurd rfl behind
    · rfl
  | some count =>
    have slash : ∀ n : Numeral, value = some n → Follows n.IsHex (47 :: (count.text ++ rest)) :=
      fun n _ c head => by
        cases head
        exact .inl rfl
    have read := parseFail_value sound.1 (.inr ⟨47, _, rfl, .inl rfl⟩) slash
    simp only [parseFail, Option.elim_some, List.cons_append, read,
      parseNumber_count (sound.2 count rfl) follows]
    rfl

/-! ## Sequences -/

theorem seqText_cons (first : PassOrFail) (rest : List (Bool × PassOrFail)) :
    ∃ c tail, seqText first rest = c :: tail ∧ (c = 80 ∨ c = 70 ∧ first.IsFail) := by
  cases first with
  | pass count =>
    cases rest with
    | nil => exact ⟨80, _, rfl, .inl rfl⟩
    | cons next rest => exact ⟨80, _, rfl, .inl rfl⟩
  | fail value count =>
    cases rest with
    | nil => exact ⟨70, _, rfl, .inr ⟨rfl, trivial⟩⟩
    | cons next rest => exact ⟨70, _, rfl, .inr ⟨rfl, trivial⟩⟩

/-- What is left of a sequence behind its first item. -/
def tailText : List (Bool × PassOrFail) → List Byte
  | [] => []
  | (plus, next) :: rest => (if plus then [43] else []) ++ seqText next rest

theorem seqText_eq (first : PassOrFail) (rest : List (Bool × PassOrFail)) :
    seqText first rest = first.text ++ tailText rest := by
  cases rest with
  | nil => exact (List.append_nil _).symm
  | cons next rest => rfl

theorem tailText_noNumber (rest : List (Bool × PassOrFail)) :
    NoNumber (tailText rest) ∧ (tailText rest).head? ≠ some 47 := by
  cases rest with
  | nil => exact ⟨.inl rfl, by simp [tailText]⟩
  | cons next rest =>
    obtain ⟨plus, next⟩ := next
    obtain ⟨c, tail, text, start⟩ := seqText_cons next rest
    simp only [tailText, text]
    cases plus with
    | true =>
      refine ⟨.inr ⟨43, _, rfl, .inr (.inr (.inr ⟨rfl, c, tail, rfl, ?_⟩))⟩, by simp⟩
      exact start.imp_right And.left
    | false =>
      obtain rfl | ⟨rfl, -⟩ := start
      · exact ⟨.inr ⟨80, tail, rfl, .inr (.inl rfl)⟩, by simp⟩
      · exact ⟨.inr ⟨70, tail, rfl, .inr (.inr (.inl rfl))⟩, by simp⟩

variable {first : PassOrFail}

theorem tailText_follows {rest : List (Bool × PassOrFail)} (separated : Separated first rest) :
    Follows first.EndsInHex (tailText rest) := by
  intro c head
  cases rest with
  | nil => cases head
  | cons next rest =>
    obtain ⟨plus, next⟩ := next
    obtain ⟨d, tail, text, start⟩ := seqText_cons next rest
    simp only [tailText, text] at head
    cases plus with
    | true =>
      cases head
      exact .inr (.inl rfl)
    | false =>
      cases head
      obtain rfl | ⟨rfl, fails⟩ := start
      · exact .inr (.inr (.inl rfl))
      · exact .inr (.inr (.inr ⟨rfl, fun hex => Bool.noConfusion (separated.1 hex fails)⟩))

theorem skipPlus_tailText (plus : Bool) (next : PassOrFail) (rest : List (Bool × PassOrFail)) :
    skipPlus (tailText ((plus, next) :: rest)) = seqText next rest := by
  obtain ⟨c, tail, text, start⟩ := seqText_cons next rest
  simp only [tailText, text]
  cases plus with
  | true => rfl
  | false =>
    obtain rfl | ⟨rfl, -⟩ := start
    · rfl
    · rfl

theorem parseLoop_item {fuel : Nat} {out : List NaClFaultExpr} {rest : List (Bool × PassOrFail)}
    (sound : first.Sound) (separated : Separated first rest) :
    parseLoop (fuel + 1) out (seqText first rest) =
      parseLoop fuel (out ++ [first.expr]) (skipPlus (tailText rest)) := by
  rw [seqText_eq]
  cases first with
  | pass count =>
    simp only [PassOrFail.text, List.cons_append, parseLoop,
      parsePass_text sound (tailText_follows separated)]
    rfl
  | fail value count =>
    obtain ⟨absent, behind⟩ := tailText_noNumber rest
    simp only [PassOrFail.text, List.cons_append, parseLoop,
      parseFail_text sound absent behind (tailText_follows separated)]
    rfl

theorem parseLoop_seq : ∀ (rest : List (Bool × PassOrFail)) {fuel : Nat} {out : List NaClFaultExpr}
    {first : PassOrFail}, rest.length + 2 ≤ fuel → Separated first rest →
    (∀ item ∈ first :: rest.map Prod.snd, item.Sound) →
    parseLoop fuel out (seqText first rest) =
      some (out ++ (first :: rest.map Prod.snd).map PassOrFail.expr)
  | [], fuel + 2, out, first, _, separated, sound => by
    rw [parseLoop_item (sound first List.mem_cons_self) separated]
    rfl
  | (plus, next) :: rest, fuel + 1, out, first, enough, separated, sound => by
    have more := @parseLoop_seq rest fuel (out ++ [first.expr]) next
      (Nat.le_of_succ_le_succ enough) separated.2
      (fun item member => sound item (List.mem_cons_of_mem _ member))
    rw [parseLoop_item (sound first List.mem_cons_self) separated, skipPlus_tailText, more,
      List.append_assoc]
    rfl

theorem length_seqText (first : PassOrFail) (rest : List (Bool × PassOrFail)) :
    rest.length + 1 ≤ (seqText first rest).length := by
  induction rest generalizing first with
  | nil =>
    obtain ⟨c, tail, text, -⟩ := seqText_cons first []
    simp [text]
  | cons next rest ih =>
    have shorter := ih next.2
    have item : 1 ≤ first.text.length := by cases first <;> simp [PassOrFail.text]
    simp only [seqText, List.length_append, List.length_cons]
    omega

theorem parsePassOrFailSeq_text {rest : List (Bool × PassOrFail)} (separated : Separated first rest)
    (sound : ∀ item ∈ first :: rest.map Prod.snd, item.Sound) :
    naClFaultInjectionParsePassOrFailSeq (seqText first rest) =
      some ((first :: rest.map Prod.snd).map PassOrFail.expr) := by
  have enough := length_seqText first rest
  exact parseLoop_seq rest (by omega) separated sound

/-! ## Entries -/

namespace Site

/-- What stands in the table for a site. -/
def entry (site : Site) : NaClFaultInjectInfo :=
  ⟨site.name, site.threadSpecific, site.items.map PassOrFail.expr⟩

variable {site : Site}

theorem parse_exprText (sound : site.Sound) :
    naClFaultInjectionParseFaultControlExpr site.exprText =
      some (site.threadSpecific, site.items.map PassOrFail.expr) := by
  have parsed := parsePassOrFailSeq_text sound.separated sound.items
  unfold exprText
  cases site.threadSpecific with
  | false => simp only [Bool.false_eq_true, if_false, naClFaultInjectionParseFaultControlExpr, parsed,
      Option.map_some, items]
  | true => simp only [if_true, naClFaultInjectionParseFaultControlExpr, parsed, Option.map_some, items]

theorem parseConfigEntry_text (sound : site.Sound) :
    naClFaultInjectionParseConfigEntry site.text = some site.entry := by
  have named : ∀ c ∈ site.name, decide (c ≠ 61) = true := fun c member =>
    decide_eq_true (sound.name c member).2.1
  simp only [naClFaultInjectionParseConfigEntry, text, List.dropWhile_append_of_pos named,
    List.takeWhile_append_of_pos named, List.dropWhile_cons, List.takeWhile_cons, ne_eq,
    not_true_eq_false, decide_false, Bool.false_eq_true, if_false, parse_exprText sound,
    Option.map_some, List.append_nil]
  rfl

end Site

/-! ## Configurations -/

/-- No separator is in the text. -/
def Unbroken (s : List Byte) : Prop := ∀ c ∈ s, c ≠ 44 ∧ c ≠ 58

theorem Unbroken.append {t : List Byte} (left : Unbroken s) (right : Unbroken t) :
    Unbroken (s ++ t) := fun c member => (List.mem_append.mp member).elim (left c) (right c)

theorem Unbroken.cons {c : Byte} {s : List Byte} (first : c ≠ 44 ∧ c ≠ 58) (rest : Unbroken s) :
    Unbroken (c :: s) := List.forall_mem_cons.mpr ⟨first, rest⟩

theorem unbroken_nil : Unbroken [] := by simp [Unbroken]

theorem Numeral.unbroken_digits (n : Numeral) : Unbroken (n.digits.map Prod.snd) := by
  intro c member
  obtain ⟨digit, among, rfl⟩ := List.mem_map.mp member
  have known := (n.digits_known digit among).1
  constructor
  · intro comma
    rw [comma] at known
    cases known
  · intro colon
    rw [colon] at known
    cases known

theorem Numeral.unbroken_text (n : Numeral) : Unbroken n.text := by
  cases n with
  | decimal first rest => exact (decimal first rest).unbroken_digits
  | octal rest => exact (octal rest).unbroken_digits
  | hex upper first rest =>
    refine .cons (by decide) (.cons ?_ (hex upper first rest).unbroken_digits)
    cases upper <;> decide

theorem Count.unbroken_text (count : Count) : Unbroken count.text := by
  cases count with
  | digits n => exact n.unbroken_text
  | forever => exact .cons (by decide) unbroken_nil

theorem PassOrFail.unbroken_text (item : PassOrFail) : Unbroken item.text := by
  cases item with
  | pass count => exact .cons (by decide) count.unbroken_text
  | fail value count =>
    refine .cons (by decide) (.append ?_ ?_)
    · cases value with
      | none => exact unbroken_nil
      | some n => exact n.unbroken_text
    · cases count with
      | none => exact unbroken_nil
      | some count => exact .cons (by decide) count.unbroken_text

theorem unbroken_seqText (first : PassOrFail) (rest : List (Bool × PassOrFail)) :
    Unbroken (seqText first rest) := by
  induction rest generalizing first with
  | nil => exact first.unbroken_text
  | cons next rest ih =>
    refine first.unbroken_text.append (.append ?_ (ih next.2))
    cases next.1 with
    | false => exact unbroken_nil
    | true => exact .cons (by decide) unbroken_nil

namespace Site

theorem unbroken_text {site : Site} (sound : site.Sound) : Unbroken site.text := by
  refine .append (fun c member => (sound.name c member).2.2) (.cons (by decide) (.cons ?_ ?_))
  · cases site.threadSpecific <;> decide
  · exact unbroken_seqText site.first site.rest

theorem text_ne_nil (site : Site) : site.text ≠ [] := by simp [text]

end Site

theorem addEntry_ok {t : Table} (size : t.size = 0) (room : t.info.length < 4)
    (entry : NaClFaultInjectInfo) :
    naClFaultInjectAddEntry t entry = .ok ⟨t.info ++ [entry], 0, 4⟩ := by
  obtain ⟨info, _, allocated⟩ := t
  cases size
  have grown : naClFaultInjectGrowIfNeeded ⟨info, 0, allocated⟩ = .ok ⟨info, 0, 4⟩ := rfl
  rw [naClFaultInjectAddEntry, grown]
  exact if_pos room

/-- One round for a pair, with what is behind its text. -/
theorem initLoop_site {fuel : Nat} {t : Table} {site : Site} {rest : List Byte} (sound : site.Sound)
    (size : t.size = 0) (room : t.info.length < 4)
    (behind : rest = [] ∨ ∃ c next, rest = c :: next ∧ (c = 44 ∨ c = 58)) :
    initLoop (fuel + 1) t (site.text ++ rest) =
      initLoop fuel ⟨t.info ++ [site.entry], 0, 4⟩ (rest.drop 1) := by
  have unbroken : ∀ c ∈ site.text, decide (c ≠ 44 ∧ c ≠ 58) = true := fun c member =>
    decide_eq_true (Site.unbroken_text sound c member)
  have head : rest.takeWhile (fun c => decide (c ≠ 44 ∧ c ≠ 58)) = [] ∧
      rest.dropWhile (fun c => decide (c ≠ 44 ∧ c ≠ 58)) = rest := by
    obtain rfl | ⟨c, next, rfl, rfl | rfl⟩ := behind
    · exact ⟨rfl, rfl⟩
    · exact ⟨rfl, rfl⟩
    · exact ⟨rfl, rfl⟩
  rw [initLoop, if_neg (by simp [site.text_ne_nil]), List.takeWhile_append_of_pos unbroken,
    List.dropWhile_append_of_pos unbroken, head.1, head.2, List.append_nil,
    Site.parseConfigEntry_text sound]
  simp only [addEntry_ok size room]
  rfl

theorem initLoop_configText : ∀ (sites : List (Site × Bool)) {fuel : Nat} {t : Table},
    sites.length < fuel → t.size = 0 → t.info.length + sites.length ≤ 4 →
    (∀ site ∈ sites, site.1.Sound) →
    ∃ t', initLoop fuel t (configText sites) = .ok t' ∧
      t'.info = t.info ++ sites.map fun site => site.1.entry
  | [], fuel + 1, t, _, _, _, _ => ⟨t, rfl, (List.append_nil _).symm⟩
  | [(site, comma)], fuel + 2, t, _, size, few, sound => by
    have round := @initLoop_site (fuel + 1) _ _ [] (sound _ List.mem_cons_self) size few
      (.inl rfl)
    rw [List.append_nil] at round
    exact ⟨_, round, rfl⟩
  | (site, comma) :: next :: rest, fuel + 1, t, enough, size, few, sound => by
    have behind : (if comma then (44 : Byte) else 58) = 44 ∨ (if comma then (44 : Byte) else 58) = 58 := by
      cases comma <;> simp
    simp only [List.length_cons] at enough few
    obtain ⟨t', run, info⟩ := initLoop_configText (next :: rest)
      (t := ⟨t.info ++ [site.entry], 0, 4⟩) (show _ < fuel by simp only [List.length_cons]; omega) rfl
      (by simp only [List.length_append, List.length_cons, List.length_nil]; omega)
      (fun site member => sound site (List.mem_cons_of_mem _ member))
    refine ⟨t', ?_, ?_⟩
    · rw [configText, initLoop_site (sound _ List.mem_cons_self) size (by omega)
        (.inr ⟨_, _, rfl, behind⟩)]
      exact run
    · rw [info, List.append_assoc]
      rfl

theorem length_configText (sites : List (Site × Bool)) : sites.length ≤ (configText sites).length := by
  induction sites with
  | nil => exact Nat.le_refl 0
  | cons site rest ih =>
    obtain ⟨site, comma⟩ := site
    cases rest with
    | nil => exact Nat.one_le_iff_ne_zero.mpr (by simp [configText, site.text_ne_nil])
    | cons next rest =>
      simp only [configText, List.length_append, List.length_cons] at ih ⊢
      omega

/-- At most four pairs are taken into the table one by one. -/
theorem moduleInternalInit_configText {sites : List (Site × Bool)} (few : sites.length ≤ 4)
    (sound : ∀ site ∈ sites, site.1.Sound) :
    ∃ t, naClFaultInjectionModuleInternalInit (some (configText sites)) = .ok t ∧
      t.info = sites.map fun site => site.1.entry := by
  have enough := length_configText sites
  exact initLoop_configText sites (by omega) rfl (by simpa [Table.empty] using few) sound

end SandboxTEE.FaultInjection
