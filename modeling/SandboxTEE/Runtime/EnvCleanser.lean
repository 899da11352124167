import Mathlib.Algebra.Group.Nat.Defs
import Mathlib.Data.List.TakeWhile
import SandboxTEE.Lib.Text
import SandboxTEE.Stdlib.BsearchCorrect
import SandboxTEE.Stdlib.Cstring

/-! # The environment of the untrusted code (`env_cleanser.c`)

The explicit variables come first, then the inherited entries that the mode, the whitelist or the
prefix `NACLENV_` lets through.  An explicit variable is to suppress the inherited one, but names
are compared before the prefix is stripped: `NACLENV_X` comes in as a second `X`
(`naClEnvCleanserInit_iff`).

An entry is a string without its NUL, so the NUL is the end of the list.
-/

namespace SandboxTEE.Runtime

open SandboxTEE.Lib (ascii)
open SandboxTEE.Stdlib

abbrev Entry := List Byte

/-- The character `=`. -/
def equalSign : Byte := 61

/-- `struct NaClEnvCleanser`; a table is NULL or its entries. -/
structure NaClEnvCleanser where
  withWhitelist : Bool
  withPassthrough : Bool
  cleansedEnviron : Option (List Entry)

def naClEnvPrefix : Entry := ascii "NACLENV_"

/-- `NACL_ENV_PREFIX_LENGTH` -/
def naClEnvPrefixLength : Nat := 8

def kNaClEnvWhitelist : List Entry :=
  ["LANG", "LC_ADDRESS", "LC_ALL", "LC_COLLATE", "LC_CTYPE", "LC_IDENTIFICATION",
    "LC_MEASUREMENT", "LC_MESSAGES", "LC_MONETARY", "LC_NAME", "LC_NUMERIC", "LC_PAPER",
    "LC_TELEPHONE", "LC_TIME", "NACLVERBOSITY", "NACL_PLUGIN_DEBUG"].map ascii

/-- `EnvCmp`: the left string is the key. -/
def envCmp : Entry → Entry → Int
  | [], [] => 0
  | [], right :: _ => -right.toNat
  | left :: _, [] => if left = equalSign then 0 else left.toNat
  | left :: lefts, right :: rights =>
    if left = right then envCmp lefts rights else (left.toNat : Int) - right.toNat

/-- `strncmp` -/
def strncmp : Entry → Entry → Nat → Int
  | _, _, 0 => 0
  | [], [], _ + 1 => 0
  | [], right :: _, _ + 1 => -right.toNat
  | left :: _, [], _ + 1 => left.toNat
  | left :: lefts, right :: rights, n + 1 =>
    if left = right then strncmp lefts rights n else (left.toNat : Int) - right.toNat

def naClEnvIsPassThroughVar (envEntry : Entry) : Bool :=
  envEntry.length > naClEnvPrefixLength &&
    strncmp envEntry naClEnvPrefix naClEnvPrefixLength == 0

def naClEnvInWhitelist (envEntry : Entry) : Bool :=
  (bsearch envCmp envEntry kNaClEnvWhitelist).isSome

def varIsInExtraEnv (envEntry : Entry) (extraEnv : Option (List Entry)) : Bool :=
  match extraEnv with
  | none => false
  | some extraEnv =>
    match envEntry.findIdx? fun c => c == equalSign with
    | none => false
    | some nameEnd => extraEnv.any fun ep => strncmp envEntry ep (nameEnd + 1) == 0

def kMaxSize : Nat := 2 ^ 64 - 1

/-- `~(kMaxSize / sizeof *envp)` -/
def ptrSizeMultOverflowMask : Nat := kMaxSize - kMaxSize / 8

section Init

variable (self : NaClEnvCleanser)

/-- The filter of the first loop. -/
def skipped (extraEnv : Option (List Entry)) (p : Entry) : Bool :=
  varIsInExtraEnv p extraEnv ||
    (!self.withPassthrough && !(self.withWhitelist && naClEnvInWhitelist p) &&
      !naClEnvIsPassThroughVar p)

/-- Count the entries that are not skipped; `none` where the count would overflow. -/
def countEntries (skip : Entry → Bool) : List Entry → Nat → Option Nat
  | [], numEnv => some numEnv
  | p :: rest, numEnv =>
    if skip p then countEntries skip rest numEnv
    else if numEnv = kMaxSize then none
    else countEntries skip rest (numEnv + 1)

/-- The second loop: what is stored for an entry. -/
def storedEntry (extraEnv : Option (List Entry)) (p : Entry) : Option Entry :=
  if varIsInExtraEnv p extraEnv then none
  else if naClEnvIsPassThroughVar p then some (p.drop naClEnvPrefixLength)
  else if self.withPassthrough || (self.withWhitelist && naClEnvInWhitelist p) then some p
  else none

/-- `NaClEnvCleanserInit`; `allocated` tells whether the table can be allocated. -/
def naClEnvCleanserInit (allocated : Bool) (envp extraEnv : Option (List Entry)) :
    Bool × NaClEnvCleanser :=
  if envp.getD [] = [] ∧ extraEnv.getD [] = [] then
    (true, { self with cleansedEnviron := none })
  else
    match (countEntries (fun _ => false) (extraEnv.getD []) 0).bind
        (countEntries (skipped self extraEnv) (envp.getD [])) with
    | none => (false, self)
    | some numEnv =>
      if (1 + numEnv) % 2 ^ 64 &&& ptrSizeMultOverflowMask ≠ 0 then (false, self)
      else if !allocated then (false, self)
      else
        let ptrTbl := extraEnv.getD [] ++ (envp.getD []).filterMap (storedEntry self extraEnv)
        if numEnv ≠ ptrTbl.length then (false, self)
        else (true, { self with cleansedEnviron := some ptrTbl })

end Init

/-- `NaClEnvCleanserEnvironment`, with no table as an empty one. -/
def naClEnvCleanserEnvironment (self : NaClEnvCleanser) : List Entry :=
  self.cleansedEnviron.getD []

/-! ## What is asked for -/

/-- The variable that an entry defines: it stands before the `=`. -/
def variableOf (entry : Entry) : Option Entry :=
  if equalSign ∈ entry then some (entry.takeWhile fun c => c ≠ equalSign) else none

/-- Two entries do not define the same variable. -/
def Apart (e f : Entry) : Prop := ∀ name, variableOf e = some name → variableOf f ≠ some name

def DistinctVariables (entries : List Entry) : Prop := entries.Pairwise Apart

/-- The entries of a table in memory: strings with distinct variables, in less than `2 ^ 63`
    bytes. -/
structure Environ where
  entries : List Entry
  strings : ∀ e ∈ entries, (0 : Byte) ∉ e
  distinct : DistinctVariables entries
  small : 8 * (entries.length + 1) < 2 ^ 63

/-- The name of a variable is in the whitelist. -/
def Whitelisted (entry : Entry) : Prop :=
  (entry.takeWhile fun c => c ≠ equalSign) ∈ kNaClEnvWhitelist

instance (entry : Entry) : Decidable (Whitelisted entry) :=
  inferInstanceAs (Decidable (_ ∈ _))

/-- An explicit entry defines the same variable. -/
def Suppressed (extraEnv : List Entry) (entry : Entry) : Prop :=
  ∃ x ∈ extraEnv, (variableOf x).isSome = true ∧ variableOf x = variableOf entry

instance (extraEnv : List Entry) (entry : Entry) : Decidable (Suppressed extraEnv entry) :=
  inferInstanceAs (Decidable (∃ x ∈ extraEnv, _))

/-- The prefix, and something behind it. -/
def Prefixed (entry : Entry) : Prop := naClEnvPrefix <+: entry ∧ naClEnvPrefix ≠ entry

instance (entry : Entry) : Decidable (Prefixed entry) := inferInstanceAs (Decidable (_ ∧ _))

/-- An entry that comes in as it is. -/
def Allowed (self : NaClEnvCleanser) (entry : Entry) : Prop :=
  self.withPassthrough = true ∨ self.withWhitelist = true ∧ Whitelisted entry

instance (self : NaClEnvCleanser) (entry : Entry) : Decidable (Allowed self entry) :=
  inferInstanceAs (Decidable (_ ∨ _))

/-- What comes in for an inherited entry that no explicit one suppresses. -/
def inherited (self : NaClEnvCleanser) (entry : Entry) : Option Entry :=
  if Prefixed entry then some (entry.drop naClEnvPrefix.length)
  else if Allowed self entry then some entry
  else none

/-- The explicit entries, and the inherited ones in order. -/
def cleansed (self : NaClEnvCleanser) (envp extraEnv : List Entry) : List Entry :=
  extraEnv ++ envp.filterMap fun e => if Suppressed extraEnv e then none else inherited self e

/-! ## The comparisons -/

theorem strncmp_eq_zero_iff : ∀ {a b : Entry} {n : Nat}, (0 : Byte) ∉ a → (0 : Byte) ∉ b →
    (strncmp a b n = 0 ↔ a.take n = b.take n)
  | _, _, 0, _, _ => by simp [strncmp]
  | [], [], _ + 1, _, _ => by simp [strncmp]
  | [], right :: _, _ + 1, _, noNul => by
    have nonzero : right.toNat ≠ (0 : Byte).toNat := fun zero =>
      noNul (UInt8.toNat_inj.mp zero ▸ List.mem_cons_self)
    simpa [strncmp] using nonzero
  | left :: _, [], _ + 1, noNul, _ => by
    have nonzero : left.toNat ≠ (0 : Byte).toNat := fun zero =>
      noNul (UInt8.toNat_inj.mp zero ▸ List.mem_cons_self)
    simpa [strncmp] using nonzero
  | left :: lefts, right :: rights, n + 1, noNul, noNul' => by
    rw [strncmp, List.take_succ_cons, List.take_succ_cons, List.cons.injEq]
    by_cases same : left = right
    · rw [if_pos same, and_iff_right same]
      exact strncmp_eq_zero_iff (fun member => noNul (List.mem_cons_of_mem _ member))
        (fun member => noNul' (List.mem_cons_of_mem _ member))
    · rw [if_neg same]
      refine iff_of_false (fun zero => same (UInt8.toNat_inj.mp ?_)) fun both => same both.1
      omega

theorem variableOf_eq_some_iff {entry name : Entry} :
    variableOf entry = some name ↔ equalSign ∉ name ∧ ∃ value, entry = name ++ equalSign :: value := by
  rw [variableOf]
  constructor
  · intro defined
    split at defined
    · next member =>
      cases defined
      refine ⟨fun inside => ?_, (entry.dropWhile fun c => c ≠ equalSign).tail, ?_⟩
      · have other := List.mem_takeWhile_imp inside
        simp at other
      · have ends : (entry.dropWhile fun c => decide (c ≠ equalSign)) ≠ [] := by
          intro empty
          have all := List.dropWhile_eq_nil_iff.mp empty equalSign member
          simp at all
        have head : (entry.dropWhile fun c => decide (c ≠ equalSign)).head ends = equalSign := by
          have stops := List.head_dropWhile_not (fun c => decide (c ≠ equalSign)) ends
          simpa using stops
        calc entry
          _ = (entry.takeWhile fun c => decide (c ≠ equalSign)) ++
              entry.dropWhile fun c => decide (c ≠ equalSign) :=
            (List.takeWhile_append_dropWhile).symm
          _ = _ := by
            rw [← List.cons_head_tail ends, head]
            rfl
    · cases defined
  · rintro ⟨noEqual, value, rfl⟩
    rw [if_pos (List.mem_append_right _ List.mem_cons_self)]
    refine congrArg some ?_
    rw [List.takeWhile_append_of_pos, List.takeWhile_cons_of_neg (by simp), List.append_nil]
    intro c member
    simp only [ne_eq, decide_not, Bool.not_eq_true', decide_eq_false_iff_not]
    rintro rfl
    exact noEqual member

theorem findIdx?_equalSign {name value : Entry} (noEqual : equalSign ∉ name) :
    (name ++ equalSign :: value).findIdx? (fun c => c == equalSign) = some name.length := by
  rw [List.findIdx?_append, List.findIdx?_eq_none_iff.mpr]
  · simp [List.findIdx?_cons]
  · intro c member
    simp only [beq_eq_false_iff_ne]
    rintro rfl
    exact noEqual member

theorem varIsInExtraEnv_iff {extraEnv : Option (List Entry)} {e : Entry} (noNul : (0 : Byte) ∉ e)
    (strings : ∀ x ∈ extraEnv.getD [], (0 : Byte) ∉ x) :
    varIsInExtraEnv e extraEnv = true ↔ Suppressed (extraEnv.getD []) e := by
  cases extraEnv with
  | none => simp [varIsInExtraEnv, Suppressed]
  | some extraEnv =>
    rw [varIsInExtraEnv]
    simp only [Option.getD_some] at strings ⊢
    by_cases member : equalSign ∈ e
    · obtain ⟨name, defined⟩ : ∃ name, variableOf e = some name := ⟨_, if_pos member⟩
      have parts := variableOf_eq_some_iff.mp defined
      obtain ⟨noEqual, value, rfl⟩ := parts
      rw [findIdx?_equalSign noEqual]
      simp only [List.any_eq_true, beq_iff_eq, Suppressed]
      refine exists_congr fun x => and_congr_right fun inside => ?_
      rw [strncmp_eq_zero_iff noNul (strings x inside), defined]
      have front : (name ++ equalSign :: value).take (name.length + 1) = name ++ [equalSign] := by
        rw [List.take_length_add_append, List.take_succ_cons, List.take_zero]
      rw [front]
      constructor
      · intro same
        have x' : variableOf x = some name := by
          refine variableOf_eq_some_iff.mpr ⟨noEqual, x.drop (name.length + 1), ?_⟩
          rw [← List.singleton_append, ← List.append_assoc, same, List.take_append_drop]
        exact ⟨by rw [x']; rfl, x'⟩
      · rintro ⟨-, defined'⟩
        obtain ⟨-, value', rfl⟩ := variableOf_eq_some_iff.mp defined'
        rw [List.take_length_add_append, List.take_succ_cons, List.take_zero]
    · have absent : e.findIdx? (fun c => c == equalSign) = none := by
        rw [List.findIdx?_eq_none_iff]
        intro c inside
        simp only [beq_eq_false_iff_ne]
        rintro rfl
        exact member inside
      have undefined : variableOf e = none := if_neg member
      rw [absent]
      refine iff_of_false Bool.false_ne_true ?_
      rintro ⟨x, -, some, same⟩
      rw [same, undefined] at some
      cases some

/-! ## The whitelist -/

/-- Bytes above the `=` sign. -/
def High (s : Entry) : Prop := ∀ c ∈ s, equalSign.toNat < c.toNat

theorem High.tail {c : Byte} {s : Entry} (high : High (c :: s)) : High s :=
  fun d member => high d (List.mem_cons_of_mem c member)

theorem envCmp_eq_zero_iff : ∀ {key x : Entry}, (0 : Byte) ∉ key → High x →
    (envCmp key x = 0 ↔ (key.takeWhile fun c => c ≠ equalSign) = x)
  | [], [], _, _ => by simp [envCmp]
  | [], right :: _, _, high => by
    have above := high right List.mem_cons_self
    simp [envCmp]
    omega
  | left :: _, [], noNul, _ => by
    have nonzero : left.toNat ≠ (0 : Byte).toNat := fun zero =>
      noNul (UInt8.toNat_inj.mp zero ▸ List.mem_cons_self)
    by_cases equal : left = equalSign
    · simp [envCmp, equal]
    · simpa [envCmp, equal] using nonzero
  | left :: lefts, right :: rights, noNul, high => by
    have above := high right List.mem_cons_self
    rw [envCmp]
    by_cases same : left = right
    · subst same
      have other : left ≠ equalSign := by
        rintro rfl
        exact absurd above (Nat.lt_irrefl _)
      rw [if_pos rfl, List.takeWhile_cons_of_pos (by simpa using other), List.cons.injEq,
        and_iff_right rfl]
      exact envCmp_eq_zero_iff (fun member => noNul (List.mem_cons_of_mem _ member)) high.tail
    · rw [if_neg same]
      refine iff_of_false (fun zero => same (UInt8.toNat_inj.mp (by omega))) fun equal => ?_
      by_cases stop : left = equalSign
      · rw [List.takeWhile_cons_of_neg (by simpa using stop)] at equal
        cases equal
      · rw [List.takeWhile_cons_of_pos (by simpa using stop)] at equal
        exact same (List.cons.inj equal).1

/-- Along strings in ASCII order the comparison falls for every key. -/
theorem envCmp_falling {x y : Entry} (before : List.Lex (· < ·) x y) : ∀ {key : Entry},
    High x → High y → (0 < envCmp key y → 0 < envCmp key x) ∧
      (envCmp key x < 0 → envCmp key y < 0) := by
  induction before with
  | @nil b ys =>
    intro key _ high
    have above := high b List.mem_cons_self
    cases key with
    | nil =>
      simp only [envCmp]
      omega
    | cons k ks =>
      simp only [envCmp]
      by_cases equal : k = equalSign
      · have differs : k ≠ b := by
          rintro rfl
          rw [equal] at above
          exact absurd above (Nat.lt_irrefl _)
        rw [if_pos equal, if_neg differs, equal]
        omega
      · rw [if_neg equal]
        split
        · next same =>
          subst same
          omega
        · omega
  | @cons a xs ys _ ih =>
    intro key high high'
    cases key with
    | nil =>
      simp only [envCmp]
      omega
    | cons k ks =>
      simp only [envCmp]
      by_cases same : k = a
      · rw [if_pos same, if_pos same]
        exact ih high.tail high'.tail
      · rw [if_neg same, if_neg same]
        exact ⟨id, id⟩
  | @rel a xs b ys less =>
    intro key high high'
    have above := high a List.mem_cons_self
    have lt : a.toNat < b.toNat := less
    cases key with
    | nil =>
      simp only [envCmp]
      omega
    | cons k ks =>
      simp only [envCmp]
      by_cases first : k = a
      · subst first
        have differs : k ≠ b := fun same => absurd (same ▸ lt) (Nat.lt_irrefl _)
        rw [if_pos rfl, if_neg differs]
        omega
      · rw [if_neg first]
        split
        · next same =>
          subst same
          omega
        · omega

theorem whitelist_sorted : kNaClEnvWhitelist.Pairwise (List.Lex (· < ·)) ∧
    ∀ x ∈ kNaClEnvWhitelist, High x := by
  constructor
  · decide +kernel
  · change ∀ x ∈ kNaClEnvWhitelist, ∀ c ∈ x, equalSign.toNat < c.toNat
    decide +kernel

theorem naClEnvInWhitelist_iff {e : Entry} (noNul : (0 : Byte) ∉ e) :
    naClEnvInWhitelist e = true ↔ Whitelisted e := by
  obtain ⟨sorted, high⟩ := whitelist_sorted
  have falling : Falling envCmp e kNaClEnvWhitelist :=
    sorted.imp_of_mem fun inX inY before => envCmp_falling before (high _ inX) (high _ inY)
  have searched := bsearch_spec falling
  rw [naClEnvInWhitelist, Whitelisted]
  cases found : bsearch envCmp e kNaClEnvWhitelist with
  | none =>
    rw [found] at searched
    refine iff_of_false Bool.false_ne_true fun member => searched _ member ?_
    exact (envCmp_eq_zero_iff noNul (high _ member)).mpr rfl
  | some i =>
    rw [found] at searched
    obtain ⟨x, at_i, zero⟩ := searched
    have member := List.mem_of_getElem? at_i
    refine iff_of_true rfl ?_
    rw [(envCmp_eq_zero_iff noNul (high _ member)).mp zero]
    exact member

/-! ## The prefix -/

theorem naClEnvPrefix_spec : naClEnvPrefix.length = 8 ∧ (0 : Byte) ∉ naClEnvPrefix ∧
    equalSign ∉ naClEnvPrefix := by decide +kernel

theorem naClEnvIsPassThroughVar_iff {e : Entry} (noNul : (0 : Byte) ∉ e) :
    naClEnvIsPassThroughVar e = true ↔ Prefixed e := by
  obtain ⟨length, noNul', -⟩ := naClEnvPrefix_spec
  have take : naClEnvPrefix.take naClEnvPrefixLength = naClEnvPrefix := by
    rw [naClEnvPrefixLength, ← length, List.take_length]
  simp only [naClEnvIsPassThroughVar, Bool.and_eq_true, decide_eq_true_eq, beq_iff_eq,
    strncmp_eq_zero_iff noNul noNul', take, Prefixed]
  constructor
  · rintro ⟨longer, same⟩
    refine ⟨same ▸ List.take_prefix _ _, fun whole => ?_⟩
    rw [← whole, length, naClEnvPrefixLength] at longer
    exact absurd longer (Nat.lt_irrefl 8)
  · rintro ⟨front, differs⟩
    have same := List.prefix_iff_eq_take.mp front
    rw [length] at same
    refine ⟨?_, same.symm⟩
    have le := front.length_le
    rw [length] at le
    refine Nat.lt_of_le_of_ne le fun equal => differs ?_
    rw [same]
    exact List.take_of_length_le (Nat.le_of_eq equal.symm)

/-- An entry with the prefix is one for a variable with the prefix. -/
theorem variableOf_prefixed {e name : Entry} (front : Prefixed e) :
    variableOf (e.drop naClEnvPrefix.length) = some name ↔
      variableOf e = some (naClEnvPrefix ++ name) := by
  obtain ⟨-, -, noEqual⟩ := naClEnvPrefix_spec
  obtain ⟨⟨rest, rfl⟩, -⟩ := front
  rw [List.drop_left, variableOf_eq_some_iff, variableOf_eq_some_iff]
  simp only [List.mem_append, noEqual, false_or, List.append_assoc, List.append_cancel_left_eq]

/-! ## The two loops -/

section Loops

variable {self : NaClEnvCleanser} {extraEnv : Option (List Entry)} {e : Entry}

theorem storedEntry_eq (noNul : (0 : Byte) ∉ e) (strings : ∀ x ∈ extraEnv.getD [], (0 : Byte) ∉ x) :
    storedEntry self extraEnv e =
      if Suppressed (extraEnv.getD []) e then none else inherited self e := by
  simp only [storedEntry, inherited, Allowed, varIsInExtraEnv_iff noNul strings,
    naClEnvIsPassThroughVar_iff noNul, Bool.or_eq_true, Bool.and_eq_true,
    naClEnvInWhitelist_iff noNul, naClEnvPrefix_spec.1, naClEnvPrefixLength]
  congr

theorem skipped_iff : skipped self extraEnv e = true ↔ storedEntry self extraEnv e = none := by
  rw [skipped, storedEntry]
  cases varIsInExtraEnv e extraEnv with
  | true => simp
  | false =>
    cases naClEnvIsPassThroughVar e with
    | true => simp
    | false => cases self.withWhitelist <;> simp

theorem countEntries_eq {skip : Entry → Bool} : ∀ {entries : List Entry} {numEnv : Nat},
    numEnv + entries.length < kMaxSize →
    countEntries skip entries numEnv = some (numEnv + (entries.filter fun p => !skip p).length)
  | [], numEnv, _ => rfl
  | p :: rest, numEnv, small => by
    rw [List.length_cons] at small
    rw [countEntries]
    cases skips : skip p with
    | true =>
      rw [if_pos rfl, countEntries_eq (by omega), List.filter_cons_of_neg (by simp [skips])]
    | false =>
      rw [if_neg Bool.false_ne_true, if_neg (by omega), countEntries_eq (by omega),
        List.filter_cons_of_pos (by simp [skips]), List.length_cons]
      exact congrArg some (by omega)

theorem length_stored (entries : List Entry) :
    (entries.filter fun p => !skipped self extraEnv p).length =
      (entries.filterMap (storedEntry self extraEnv)).length := by
  induction entries with
  | nil => rfl
  | cons p rest ih =>
    cases stored : storedEntry self extraEnv p with
    | none =>
      have skips := skipped_iff.mpr stored
      rw [List.filter_cons_of_neg (by simp [skips]), List.filterMap_cons_none stored, ih]
    | some b =>
      have kept : skipped self extraEnv p = false := by
        rw [← Bool.not_eq_true, skipped_iff, stored]
        exact Option.some_ne_none b
      rw [List.filter_cons_of_pos (by simp [kept]), List.filterMap_cons_some stored,
        List.length_cons, List.length_cons, ih]

end Loops

theorem ptrSizeMultOverflowMask_and {n : Nat} (small : n < 2 ^ 61) :
    n % 2 ^ 64 &&& ptrSizeMultOverflowMask = 0 := by
  have mask : ptrSizeMultOverflowMask = 7 <<< 61 := by decide
  rw [Nat.mod_eq_of_lt (by omega), mask]
  refine Nat.eq_of_testBit_eq fun i => ?_
  rw [Nat.testBit_and, Nat.testBit_shiftLeft, Nat.zero_testBit]
  by_cases high : 61 ≤ i
  · rw [Nat.testBit_lt_two_pow (Nat.lt_of_lt_of_le small (Nat.pow_le_pow_right (by decide) high)),
      Bool.false_and]
  · rw [decide_eq_false high, Bool.false_and, Bool.and_false]

/-- With memory for the table all entries are stored. -/
theorem naClEnvCleanserInit_stored {self : NaClEnvCleanser} {envp extraEnv : Option (List Entry)}
    (small : (extraEnv.getD []).length + (envp.getD []).length + 1 < 2 ^ 61) :
    (naClEnvCleanserInit self true envp extraEnv).1 = true ∧
      naClEnvCleanserEnvironment (naClEnvCleanserInit self true envp extraEnv).2 =
        extraEnv.getD [] ++ (envp.getD []).filterMap (storedEntry self extraEnv) := by
  rw [naClEnvCleanserInit]
  by_cases empty : envp.getD [] = [] ∧ extraEnv.getD [] = []
  · rw [if_pos empty, empty.1, empty.2]
    exact ⟨rfl, rfl⟩
  · have explicit := @countEntries_eq (fun _ => false) (extraEnv.getD []) 0 (by rw [kMaxSize]; omega)
    have all : ((extraEnv.getD []).filter fun p => !(fun _ => false) p) = extraEnv.getD [] :=
      List.filter_eq_self.mpr fun _ _ => rfl
    rw [all, Nat.zero_add] at explicit
    have counted := @countEntries_eq (skipped self extraEnv) (envp.getD [])
      (extraEnv.getD []).length (by rw [kMaxSize]; omega)
    have most := List.length_filterMap_le (storedEntry self extraEnv) (envp.getD [])
    rw [length_stored, ← List.length_append] at counted
    rw [if_neg empty, explicit, Option.bind_some, counted]
    generalize table : extraEnv.getD [] ++ (envp.getD []).filterMap (storedEntry self extraEnv) = t
    have length : 1 + t.length < 2 ^ 61 := by
      rw [← table, List.length_append]
      omega
    have bits := ptrSizeMultOverflowMask_and length
    dsimp only
    rw [if_neg (by rw [bits]; exact fun differs => differs rfl), if_neg (by decide),
      if_neg fun differs => differs rfl]
    exact ⟨rfl, rfl⟩

/-- A call that fails leaves the object as it is. -/
theorem naClEnvCleanserInit_failed {self : NaClEnvCleanser} {allocated : Bool}
    {envp extraEnv : Option (List Entry)}
    (failed : (naClEnvCleanserInit self allocated envp extraEnv).1 = false) :
    (naClEnvCleanserInit self allocated envp extraEnv).2 = self := by
  revert failed
  rw [naClEnvCleanserInit]
  split
  · intro failed
    cases failed
  · split
    · exact fun _ => rfl
    · split
      · exact fun _ => rfl
      · split
        · exact fun _ => rfl
        · dsimp only
          split
          · exact fun _ => rfl
          · intro failed
            cases failed

/-! ## The result -/

/-- The entries of a table that may be NULL. -/
def entriesOf (env : Option Environ) : List Entry := (env.map Environ.entries).getD []

theorem entriesOf_spec (env : Option Environ) : (∀ e ∈ entriesOf env, (0 : Byte) ∉ e) ∧
    DistinctVariables (entriesOf env) ∧ 8 * ((entriesOf env).length + 1) < 2 ^ 63 := by
  cases env with
  | none => exact ⟨fun e member => absurd member List.not_mem_nil, List.Pairwise.nil, by decide⟩
  | some env => exact ⟨env.strings, env.distinct, env.small⟩

section Result

variable (self : NaClEnvCleanser) (envp extraEnv : Option Environ)

theorem filterMap_storedEntry :
    (entriesOf envp).filterMap (storedEntry self (extraEnv.map Environ.entries)) =
      (entriesOf envp).filterMap fun e =>
        if Suppressed (entriesOf extraEnv) e then none else inherited self e :=
  List.filterMap_congr fun e member =>
    storedEntry_eq ((entriesOf_spec envp).1 e member) (entriesOf_spec extraEnv).1

/-- With memory for the table the call succeeds, and the environment has the explicit entries and
    the inherited ones. -/
theorem naClEnvCleanserInit_environment :
    (naClEnvCleanserInit self true (envp.map Environ.entries) (extraEnv.map Environ.entries)).1 =
        true ∧ naClEnvCleanserEnvironment (naClEnvCleanserInit self true (envp.map Environ.entries)
        (extraEnv.map Environ.entries)).2 = cleansed self (entriesOf envp) (entriesOf extraEnv) := by
  have smallEnv := (entriesOf_spec envp).2.2
  have smallExtra := (entriesOf_spec extraEnv).2.2
  rw [cleansed, ← filterMap_storedEntry]
  exact naClEnvCleanserInit_stored (by change (entriesOf extraEnv).length + (entriesOf envp).length + 1 < _; omega)

end Result

/-! ## When no variable is defined twice -/

section Distinct

variable {self : NaClEnvCleanser} {envp extraEnv : List Entry} {e f b : Entry}

theorem Apart.symm (apart : Apart e f) : Apart f e := fun _ hf he => apart _ he hf

/-- No variable that comes in without its prefix is defined explicitly, or comes in under its own
    name as well. -/
structure NoClash (cleanser : NaClEnvCleanser) (envp extraEnv : List Entry) : Prop where
  explicit : ∀ e ∈ envp, Prefixed e → ¬ Suppressed extraEnv e →
    ∀ x ∈ extraEnv, Apart x (e.drop naClEnvPrefix.length)
  inherited : ∀ e ∈ envp, Prefixed e → ¬ Suppressed extraEnv e →
    ∀ f ∈ envp, ¬ Prefixed f → Allowed cleanser f → ¬ Suppressed extraEnv f →
      Apart f (e.drop naClEnvPrefix.length)

theorem comesIn_iff : (if Suppressed extraEnv e then none else inherited self e) = some b ↔
    ¬ Suppressed extraEnv e ∧ (Prefixed e ∧ b = e.drop naClEnvPrefix.length ∨
      ¬ Prefixed e ∧ Allowed self e ∧ b = e) := by
  rw [inherited]
  by_cases suppressed : Suppressed extraEnv e
  · simp [suppressed]
  · by_cases front : Prefixed e
    · simp [suppressed, front, eq_comm]
    · by_cases allowed : Allowed self e
      · simp [suppressed, front, allowed, eq_comm]
      · simp [suppressed, front, allowed]

theorem apart_of_not_suppressed (free : ¬ Suppressed extraEnv e) {x : Entry} (member : x ∈ extraEnv) :
    Apart x e := fun _ defined same =>
  free ⟨x, member, by rw [defined]; rfl, by rw [defined, same]⟩

/-- Two variables keep apart without the prefix. -/
theorem Apart.drop (apart : Apart e f) (front : Prefixed e) (front' : Prefixed f) :
    Apart (e.drop naClEnvPrefix.length) (f.drop naClEnvPrefix.length) := fun _ he hf =>
  apart _ ((variableOf_prefixed front).mp he) ((variableOf_prefixed front').mp hf)

theorem distinct_cleansed_iff (envDistinct : DistinctVariables envp)
    (extraDistinct : DistinctVariables extraEnv) :
    DistinctVariables (cleansed self envp extraEnv) ↔ NoClash self envp extraEnv := by
  rw [DistinctVariables, cleansed, List.pairwise_append, List.pairwise_filterMap]
  constructor
  · rintro ⟨-, among, across⟩
    refine ⟨fun e member front free x inExtra => ?_,
      fun e member front free f member' other allowed free' => ?_⟩
    · exact across x inExtra _ (List.mem_filterMap.mpr
        ⟨e, member, comesIn_iff.mpr ⟨free, Or.inl ⟨front, rfl⟩⟩⟩)
    · have differs : f ≠ e := by
        rintro rfl
        exact other front
      have symmetric : Std.Symm fun e f => ∀ b,
          (if Suppressed extraEnv e then none else inherited self e) = some b →
          ∀ b', (if Suppressed extraEnv f then none else inherited self f) = some b' → Apart b b' :=
        ⟨fun _ _ apart b hb b' hb' => (apart b' hb' b hb).symm⟩
      have apart := among.forall member' member differs
      exact apart f (comesIn_iff.mpr ⟨free', Or.inr ⟨other, allowed, rfl⟩⟩) _
        (comesIn_iff.mpr ⟨free, Or.inl ⟨front, rfl⟩⟩)
  · intro noClash
    refine ⟨extraDistinct, ?_, ?_⟩
    · refine envDistinct.imp_of_mem fun {e f} inE inF apart b hb b' hb' => ?_
      obtain ⟨free, comesIn⟩ := comesIn_iff.mp hb
      obtain ⟨free', comesIn'⟩ := comesIn_iff.mp hb'
      rcases comesIn with ⟨front, rfl⟩ | ⟨other, allowed, rfl⟩
      · rcases comesIn' with ⟨front', rfl⟩ | ⟨other', allowed', rfl⟩
        · exact Apart.drop apart front front'
        · exact (noClash.inherited e inE front free _ inF other' allowed' free').symm
      · rcases comesIn' with ⟨front', rfl⟩ | ⟨other', allowed', rfl⟩
        · exact noClash.inherited f inF front' free' _ inE other allowed free
        · exact apart
    · intro x inExtra b member
      obtain ⟨e, inE, hb⟩ := List.mem_filterMap.mp member
      obtain ⟨free, comesIn⟩ := comesIn_iff.mp hb
      rcases comesIn with ⟨front, rfl⟩ | ⟨-, -, rfl⟩
      · exact noClash.explicit e inE front free x inExtra
      · exact apart_of_not_suppressed free inExtra

end Distinct

/-- For every mode, every inherited environment and every explicit list, given memory for the table:
    the call yields the explicit entries and the inherited ones that are let through, and no
    variable is defined twice, exactly when none comes in without its prefix that is defined
    explicitly or comes in under its own name as well. -/
theorem naClEnvCleanserInit_iff (self : NaClEnvCleanser) (envp extraEnv : Option Environ) :
    let result := naClEnvCleanserInit self true (envp.map Environ.entries)
      (extraEnv.map Environ.entries)
    (result.1 = true ∧
      naClEnvCleanserEnvironment result.2 = cleansed self (entriesOf envp) (entriesOf extraEnv) ∧
      DistinctVariables (naClEnvCleanserEnvironment result.2)) ↔
      NoClash self (entriesOf envp) (entriesOf extraEnv) := by
  intro result
  obtain ⟨ok, environment⟩ := naClEnvCleanserInit_environment self envp extraEnv
  rw [environment, and_iff_right ok, and_iff_right rfl,
    distinct_cleansed_iff (entriesOf_spec envp).2.1 (entriesOf_spec extraEnv).2.1]

def explicitFoo : Environ where
  entries := [ascii "FOO=1"]
  strings := by decide
  distinct := List.pairwise_singleton _ _
  small := by decide

def inheritedFoo : Environ where
  entries := [ascii "NACLENV_FOO=2"]
  strings := by decide
  distinct := List.pairwise_singleton _ _
  small := by decide

/-- `FOO=1` explicitly, and `NACLENV_FOO=2` inherited. -/
theorem naClEnvCleanserInit_twice : ¬ ∀ (self : NaClEnvCleanser) (envp extraEnv : Option Environ),
    let result := naClEnvCleanserInit self true (envp.map Environ.entries)
      (extraEnv.map Environ.entries)
    result.1 = true ∧
      naClEnvCleanserEnvironment result.2 = cleansed self (entriesOf envp) (entriesOf extraEnv) ∧
      DistinctVariables (naClEnvCleanserEnvironment result.2) := by
  intro every
  have distinct := (every ⟨false, false, none⟩ (some inheritedFoo) (some explicitFoo)).2.2
  have both : naClEnvCleanserEnvironment (naClEnvCleanserInit ⟨false, false, none⟩ true
      [ascii "NACLENV_FOO=2"] [ascii "FOO=1"]).2 = [ascii "FOO=1", ascii "FOO=2"] := by
    decide +kernel
  have apart := List.pairwise_pair.mp (both ▸ distinct)
  exact apart (ascii "FOO") (by decide +kernel) (by decide +kernel)

end SandboxTEE.Runtime
