import SandboxTEE.Startup.MainThread
import SandboxTEE.Lib.Run

/-! # The initial stack decodes to the arguments

The loops fill the pointer table and the string block word by word and string by string
(`Cursor.Holds`), so at the end the table holds exactly as many words as its computed size and
every write is apart from every other.  A program that reads the stack by the startup
convention of `nacl_startup.h` finds the arguments, the environment and the auxiliary vector.
-/

namespace SandboxTEE.Startup

open SandboxTEE.Lib SandboxTEE.Lib.Write SandboxTEE.Runtime

/-! ## The startup convention -/

/-- `info[i]` -/
def wordAt (mem : Nat → BitVec 8) (info i : Nat) : Nat := leValue (bytesAt mem (info + 4 * i) 4)

/-- The C string `s` stands at the address. -/
def StringAt (mem : Nat → BitVec 8) (addr : Nat) (s : CString) : Prop :=
  bytesAt mem addr s.size = s.terminated

/-- Pairs of words from index `i` on, up to a pair that starts with `AT_NULL`. -/
inductive AuxvAt (word : Nat → Nat) : Nat → List (Nat × Nat) → Prop
  | null {i : Nat} (atEnd : word i = atNull) : AuxvAt word i []
  | pair {i : Nat} {rest : List (Nat × Nat)} (tag : word i ≠ atNull)
      (more : AuxvAt word (i + 2) rest) : AuxvAt word i ((word i, word (i + 1)) :: rest)

/-- What `nacl_startup.h` finds at `info`. -/
structure Decodes (mem : Nat → BitVec 8) (memStart info : Nat) (argv envp : List CString)
    (auxv : List (Nat × Nat)) : Prop where
  cleanup : wordAt mem info 0 = 0
  envc : wordAt mem info 1 = envp.length
  argc : wordAt mem info 2 = argv.length
  argvAt : ∀ i s, argv[i]? = some s → StringAt mem (memStart + wordAt mem info (3 + i)) s
  argvEnd : wordAt mem info (3 + argv.length) = 0
  envpAt : ∀ i s, envp[i]? = some s →
    StringAt mem (memStart + wordAt mem info (3 + argv.length + 1 + i)) s
  envpEnd : wordAt mem info (3 + argv.length + 1 + envp.length) = 0
  auxvAt : AuxvAt (wordAt mem info) (3 + argv.length + 1 + envp.length + 1) auxv

theorem CString.length_terminated (s : CString) : s.terminated.length = s.size := by
  rw [CString.terminated, List.length_append]
  rfl

theorem StringAt.unique {mem : Nat → BitVec 8} {addr : Nat} {s t : CString}
    (hs : StringAt mem addr s) (ht : StringAt mem addr t) : s = t := by
  have cell {s : CString} (hs : StringAt mem addr s) {i : Nat} (inside : i < s.size) :
      s.terminated[i]? = some (mem (addr + i)) := by
    rw [← hs, getElem?_bytesAt, if_pos inside]
  -- the shorter string would end inside the longer one
  have le {s t : CString} (hs : StringAt mem addr s) (ht : StringAt mem addr t) :
      t.bytes.length ≤ s.bytes.length := by
    by_contra longer
    have atEnd := cell hs (Nat.lt_succ_self s.bytes.length)
    have inside := cell ht (i := s.bytes.length) (by simp only [CString.size]; omega)
    rw [CString.terminated, List.getElem?_append_right (Nat.le_refl _), Nat.sub_self] at atEnd
    rw [CString.terminated, List.getElem?_append_left (Nat.lt_of_not_le longer)] at inside
    rw [← Option.some.inj atEnd] at inside
    exact t.noNul (List.mem_of_getElem? inside)
  have length := Nat.le_antisymm (le ht hs) (le hs ht)
  have same : s.terminated = t.terminated := by
    rw [← hs, ← ht, CString.size, CString.size, length]
  have bytes := (List.append_inj same length).1
  cases s
  cases t
  congr

theorem AuxvAt.unique {word : Nat → Nat} {i : Nat} {auxv auxv' : List (Nat × Nat)}
    (first : AuxvAt word i auxv) (second : AuxvAt word i auxv') : auxv = auxv' := by
  induction first generalizing auxv' with
  | null atEnd =>
    cases second with
    | null => rfl
    | pair tag => exact absurd atEnd tag
  | pair tag more ih =>
    cases second with
    | null atEnd => exact absurd atEnd tag
    | pair _ more' => rw [ih more']

theorem Decodes.unique {mem : Nat → BitVec 8} {memStart info : Nat} {argv argv' envp envp' : List CString}
    {auxv auxv' : List (Nat × Nat)} (first : Decodes mem memStart info argv envp auxv)
    (second : Decodes mem memStart info argv' envp' auxv') :
    argv = argv' ∧ envp = envp' ∧ auxv = auxv' := by
  have strings {l l' : List CString} (at_i : Nat → Nat) (length : l.length = l'.length)
      (hl : ∀ i s, l[i]? = some s → StringAt mem (at_i i) s)
      (hl' : ∀ i s, l'[i]? = some s → StringAt mem (at_i i) s) : l = l' := by
    refine List.ext_getElem length fun i inside inside' => ?_
    exact (hl i _ (List.getElem?_eq_getElem inside)).unique
      (hl' i _ (List.getElem?_eq_getElem inside'))
  have argc := first.argc.symm.trans second.argc
  have envc := first.envc.symm.trans second.envc
  refine ⟨strings _ argc first.argvAt second.argvAt, strings _ envc first.envpAt ?_, ?_⟩
  · rw [argc]
    exact second.envpAt
  · have auxv := first.auxvAt
    rw [argc, envc] at auxv
    exact auxv.unique second.auxvAt

/-! ## What the loops write -/

/-- The pointers to strings that stand one behind the other from `user` on. -/
def pointersFrom (user : Nat) : List CString → List Nat
  | [] => []
  | s :: strings => user :: pointersFrom (user + s.size) strings

/-- The words `words` of the table and the strings `strings` have been written. -/
structure Cursor.Holds (base mid : Nat) (words : List Nat) (strings : List CString)
    (c : Cursor) : Prop where
  p : c.p = base + 4 * words.length
  strp : c.strp = mid + stringsSize strings
  writes : c.writes.Perm
    (placeFrom base (words.map (leBytes 4)) ++ placeFrom mid (strings.map CString.terminated))

theorem length_flatten_words (words : List Nat) :
    (words.map (leBytes 4)).flatten.length = 4 * words.length := by
  induction words with
  | nil => rfl
  | cons w words ih =>
    rw [List.map_cons, List.flatten_cons, List.length_append, ih, length_leBytes, List.length_cons]
    omega

theorem length_flatten_strings (strings : List CString) :
    (strings.map CString.terminated).flatten.length = stringsSize strings := by
  induction strings with
  | nil => rfl
  | cons s strings ih =>
    rw [List.map_cons, List.flatten_cons, List.length_append, ih, s.length_terminated]
    rfl

@[simp] theorem stringsSize_nil : stringsSize [] = 0 := rfl

@[simp] theorem stringsSize_cons (s : CString) (strings : List CString) :
    stringsSize (s :: strings) = s.size + stringsSize strings := rfl

@[simp] theorem stringsSize_append (strings strings' : List CString) :
    stringsSize (strings ++ strings') = stringsSize strings + stringsSize strings' := by
  rw [stringsSize, List.map_append, List.sum_append]
  rfl

section Loops

variable {nap : NaClApp} {base mid : Nat} {words : List Nat} {placed : List CString} {c : Cursor}

theorem Cursor.Holds.word (holds : c.Holds base mid words placed) (w : Nat) :
    (c.word w).Holds base mid (words ++ [w]) placed where
  p := by
    rw [Cursor.word, List.length_append, List.length_singleton]
    simp only [holds.p]
    omega
  strp := holds.strp
  writes := by
    rw [List.map_append, placeFrom_append, length_flatten_words, ← holds.p]
    refine (List.Perm.append_right _ holds.writes).trans ?_
    rw [List.append_assoc, List.append_assoc]
    exact List.Perm.append_left _ List.perm_append_comm

theorem Cursor.Holds.string (holds : c.Holds base mid words placed) {s : CString}
    (inside : nap.space.memStart ≤ c.strp ∧ c.strp < nap.space.memStart + 2 ^ nap.space.addrBits) :
    ∃ c', c.string nap s = .ok c' ∧
      c'.Holds base mid (words ++ [c.strp - nap.space.memStart]) (placed ++ [s]) := by
  have translated : naClSysToUser nap c.strp = .ok (c.strp - nap.space.memStart) :=
    if_neg (by omega)
  have word := holds.word (c.strp - nap.space.memStart)
  refine ⟨⟨c.p + 4, c.strp + s.size, (c.word (c.strp - nap.space.memStart)).writes ++
    [⟨c.strp, s.terminated⟩]⟩, by rw [Cursor.string, translated]; rfl, word.p, ?_, ?_⟩
  · rw [stringsSize_append, ← Nat.add_assoc, ← holds.strp]
    rfl
  · rw [@List.map_append _ _ _ placed, List.map_singleton, placeFrom_append, length_flatten_strings,
      ← holds.strp, ← List.append_assoc]
    exact List.Perm.append_right _ word.writes

/-- A loop writes a pointer and a string in each turn. -/
theorem Cursor.Holds.strings (holds : c.Holds base mid words placed) (l : List CString)
    (start : nap.space.memStart ≤ mid)
    (room : mid + stringsSize (placed ++ l) ≤ nap.space.memStart + 2 ^ nap.space.addrBits) :
    ∃ c', l.foldlM (Cursor.string nap) c = .ok c' ∧ c'.Holds base mid
        (words ++ pointersFrom (mid + stringsSize placed - nap.space.memStart) l)
        (placed ++ l) := by
  induction l generalizing words placed c with
  | nil => exact ⟨c, rfl, by simpa [pointersFrom] using holds⟩
  | cons s l ih =>
    have strp := holds.strp
    obtain ⟨c₁, run, holds₁⟩ := @Cursor.Holds.string nap _ _ _ _ _ holds s (by
      simp only [stringsSize_append, stringsSize_cons, CString.size] at room
      omega)
    obtain ⟨c₂, runs, holds₂⟩ := ih holds₁ (by simpa using room)
    refine ⟨c₂, by rw [List.foldlM_cons, run]; exact runs, ?_⟩
    have next : mid + stringsSize (placed ++ [s]) - nap.space.memStart =
        mid + stringsSize placed - nap.space.memStart + s.size := by
      simp only [stringsSize_append, stringsSize_cons, stringsSize_nil]
      omega
    rw [next, strp] at holds₂
    simpa [pointersFrom] using holds₂

theorem Cursor.Holds.auxv (holds : c.Holds base mid words placed) (tag value : Nat) :
    (c.auxv tag value).Holds base mid (words ++ if value ≠ 0 then [tag, value] else []) placed := by
  rw [Cursor.auxv]
  split
  · simpa using (holds.word tag).word value
  · simpa using holds

end Loops

/-! ## Reading the table -/

/-- The pairs of the auxiliary vector that apply. -/
def auxvPairs (nap : NaClApp) : List (Nat × Nat) :=
  (if nap.userEntryPt ≠ 0 then [(atEntry, nap.userEntryPt)] else []) ++
    if nap.dynamicTextStart ≠ 0 then [(atBase, nap.dynamicTextStart)] else []

/-- The same as a program finds them, with values of 32 bits. -/
def auxvOf (nap : NaClApp) : List (Nat × Nat) :=
  (auxvPairs nap).map fun pair => (pair.1, pair.2 % 2 ^ 32)

def pairWords (pairs : List (Nat × Nat)) : List Nat := pairs.flatMap fun pair => [pair.1, pair.2]

/-- All words of the table, for strings from the user address `user` on. -/
def tableWords (nap : NaClApp) (user : Nat) (argv envv : List CString) : List Nat :=
  [0, envv.length, argv.length] ++ pointersFrom user argv ++ [0] ++
    pointersFrom (user + stringsSize argv) envv ++ [0] ++ pairWords (auxvPairs nap) ++ [atNull, 0]

@[simp] theorem length_pointersFrom (user : Nat) (strings : List CString) :
    (pointersFrom user strings).length = strings.length := by
  induction strings generalizing user with
  | nil => rfl
  | cons s strings ih => rw [pointersFrom, List.length_cons, ih, List.length_cons]

theorem getElem?_pointersFrom {user i : Nat} {strings : List CString} (inside : i < strings.length) :
    (pointersFrom user strings)[i]? = some (user + stringsSize (strings.take i)) := by
  induction strings generalizing user i with
  | nil => cases inside
  | cons s strings ih =>
    cases i with
    | zero => rfl
    | succ i =>
      rw [pointersFrom, List.getElem?_cons_succ, ih (Nat.lt_of_succ_lt_succ inside),
        List.take_succ_cons, stringsSize_cons, Nat.add_assoc]

theorem pairWords_auxvPairs (nap : NaClApp) : pairWords (auxvPairs nap) =
    (if nap.userEntryPt ≠ 0 then [atEntry, nap.userEntryPt] else []) ++
      if nap.dynamicTextStart ≠ 0 then [atBase, nap.dynamicTextStart] else [] := by
  rw [auxvPairs, pairWords, List.flatMap_append]
  congr 1
  · split <;> rfl
  · split <;> rfl

theorem length_pairWords (nap : NaClApp) :
    (pairWords (auxvPairs nap)).length + 2 = auxvEntries nap * 2 := by
  rw [pairWords_auxvPairs, auxvEntries]
  split <;> split <;> rfl

/-- The computed size of the table is the number of its words. -/
theorem length_tableWords (nap : NaClApp) (user : Nat) (argv envv : List CString) :
    4 * (tableWords nap user argv envv).length = ptrTblSize nap argv.length envv.length := by
  have pairs := length_pairWords nap
  simp only [tableWords, ptrTblSize, List.length_append, length_pointersFrom, List.length_cons,
    List.length_nil]
  omega

/-- A reader of words finds those of a list. -/
def Finds (word : Nat → Nat) (words : List Nat) : Prop :=
  ∀ i w, words[i]? = some w → word i = w % 2 ^ 32

theorem Finds.auxv {word : Nat → Nat} {pairs : List (Nat × Nat)} (front : List Nat)
    (tags : ∀ pair ∈ pairs, pair.1 ≠ atNull ∧ pair.1 < 2 ^ 32)
    (finds : Finds word (front ++ pairWords pairs ++ [atNull, 0])) :
    AuxvAt word front.length (pairs.map fun pair => (pair.1, pair.2 % 2 ^ 32)) := by
  induction pairs generalizing front with
  | nil =>
    exact .null (finds front.length atNull (by simp [pairWords]))
  | cons pair pairs ih =>
    obtain ⟨tag, value⟩ := pair
    obtain ⟨nonnull, small⟩ := tags (tag, value) List.mem_cons_self
    have words : front ++ pairWords ((tag, value) :: pairs) ++ [atNull, 0] =
        front ++ [tag, value] ++ pairWords pairs ++ [atNull, 0] := by
      simp [pairWords]
    rw [words] at finds
    have tag_at : word front.length = tag :=
      (finds front.length tag (by simp)).trans (Nat.mod_eq_of_lt small)
    have value_at : word (front.length + 1) = value % 2 ^ 32 :=
      finds (front.length + 1) value (by simp)
    have more := ih (front ++ [tag, value])
      (fun pair member => tags pair (List.mem_cons_of_mem _ member)) finds
    rw [List.map_cons]
    dsimp only
    rw [← value_at, ← tag_at]
    refine .pair ?_ (by simpa using more)
    rw [tag_at]
    exact nonnull

theorem auxvPairs_tags (nap : NaClApp) :
    ∀ pair ∈ auxvPairs nap, pair.1 ≠ atNull ∧ pair.1 < 2 ^ 32 := by
  intro pair member
  cases List.mem_append.mp member with
  | inl entry =>
    split at entry
    · rw [List.mem_singleton.mp entry]
      exact ⟨show atEntry ≠ atNull by decide, show atEntry < 2 ^ 32 by decide⟩
    · cases entry
  | inr base =>
    split at base
    · rw [List.mem_singleton.mp base]
      exact ⟨show atBase ≠ atNull by decide, show atBase < 2 ^ 32 by decide⟩
    · cases base

theorem getElem?_middle {α : Type} {words front middle behind : List α} {n i : Nat}
    (parts : words = front ++ middle ++ behind) (ahead : front.length = n)
    (inside : i < middle.length) : words[n + i]? = middle[i]? := by
  subst parts ahead
  rw [List.getElem?_append_left (by rw [List.length_append]; omega),
    List.getElem?_append_right (Nat.le_add_right _ _), Nat.add_sub_cancel_left]

theorem tableWords_parts (nap : NaClApp) (user : Nat) (argv envv : List CString) :
    (∀ i < argv.length, (tableWords nap user argv envv)[3 + i]? = (pointersFrom user argv)[i]?) ∧
    (tableWords nap user argv envv)[3 + argv.length]? = some 0 ∧
    (∀ i < envv.length, (tableWords nap user argv envv)[3 + argv.length + 1 + i]? =
      (pointersFrom (user + stringsSize argv) envv)[i]?) ∧
    (tableWords nap user argv envv)[3 + argv.length + 1 + envv.length]? = some 0 := by
  have argvLength := length_pointersFrom user argv
  have envvLength := length_pointersFrom (user + stringsSize argv) envv
  have parts : tableWords nap user argv envv = [0, envv.length, argv.length] ++
      (pointersFrom user argv ++ ([0] ++ (pointersFrom (user + stringsSize argv) envv ++
        ([0] ++ (pairWords (auxvPairs nap) ++ [atNull, 0]))))) := by
    simp only [tableWords, List.append_assoc]
  rw [parts]
  generalize pointersFrom user argv = argvWords at argvLength
  generalize pointersFrom (user + stringsSize argv) envv = envvWords at envvLength
  generalize pairWords (auxvPairs nap) ++ [atNull, 0] = behind
  generalize head_eq : ([0, envv.length, argv.length] : List Nat) = head
  have three : head.length = 3 := by rw [← head_eq]; rfl
  refine ⟨fun i inside => ?_, ?_, fun i inside => ?_, ?_⟩
  · exact getElem?_middle (List.append_assoc head argvWords _).symm three (by omega)
  · have middle := @getElem?_middle _ _ (head ++ argvWords) [0]
      (envvWords ++ ([0] ++ behind)) _ 0 rfl (List.length_append) (by decide)
    simp only [List.append_assoc, three, argvLength, Nat.add_zero] at middle
    exact middle
  · have middle := @getElem?_middle _ _ (head ++ argvWords ++ [0]) envvWords
      ([0] ++ behind) (3 + argv.length + 1) i rfl
      (by simp only [List.length_append, List.length_singleton]; omega) (by omega)
    simpa only [List.append_assoc] using middle
  · have middle := @getElem?_middle _ _ (head ++ argvWords ++ [0] ++ envvWords) [0] behind
      (3 + argv.length + 1 + envv.length) 0 rfl
      (by simp only [List.length_append, List.length_singleton]; omega) (by decide)
    simp only [List.append_assoc] at middle
    exact middle

/-! ## The image -/

/-- The strings fit the stack. -/
structure Fits (nap : NaClApp) (argv envv : List CString) : Prop where
  stack : imageSize nap argv envv ≤ nap.stackSize
  top : imageSize nap argv envv < naClGetInitialStackTop nap

/-- The system address above the image. -/
def stackTop (nap : NaClApp) : Nat := nap.space.memStart + naClGetInitialStackTop nap

/-- What is known of the image the loops build. -/
structure Built (nap : NaClApp) (argv envv : List CString) (stackPtr : Nat)
    (c : Cursor) : Prop where
  top : stackPtr + imageSize nap argv envv = stackTop nap
  inside : nap.space.memStart + 16 ≤ stackPtr
  holds : c.Holds stackPtr (stackPtr + ptrTblSize nap argv.length envv.length)
    (tableWords nap (stackPtr + ptrTblSize nap argv.length envv.length - nap.space.memStart)
      argv envv) (argv ++ envv)

theorem le_alignStack (size : Nat) : size ≤ alignStack size := by
  simp only [alignStack, naClStackAlignMask]
  omega

theorem alignStack_mod (size : Nat) : alignStack size % 16 = 0 := by
  simp only [alignStack, naClStackAlignMask]
  omega

theorem fillStack_holds {nap : NaClApp} {argv envv : List CString} {base : Nat}
    (start : nap.space.memStart ≤ base) (room : base + ptrTblSize nap argv.length envv.length +
      (stringsSize argv + stringsSize envv) ≤ nap.space.memStart + 2 ^ nap.space.addrBits) :
    ∃ c, fillStack nap argv envv base = .ok c ∧
      c.Holds base (base + ptrTblSize nap argv.length envv.length)
        (tableWords nap (base + ptrTblSize nap argv.length envv.length - nap.space.memStart)
          argv envv) (argv ++ envv) := by
  generalize mid_eq : base + ptrTblSize nap argv.length envv.length = mid at *
  have start' : nap.space.memStart ≤ mid := by omega
  have empty : (Cursor.mk base mid []).Holds base mid [] [] := ⟨rfl, rfl, List.Perm.refl _⟩
  obtain ⟨c₁, run₁, holds₁⟩ := (((empty.word 0).word envv.length).word argv.length).strings argv
    start' (by simp only [List.nil_append]; omega)
  obtain ⟨c₂, run₂, holds₂⟩ := (holds₁.word 0).strings envv start' (by
    simp only [List.nil_append, stringsSize_append]
    omega)
  have last := ((((holds₂.word 0).auxv atEntry nap.userEntryPt).auxv atBase
    nap.dynamicTextStart).word atNull).word 0
  have second : mid + stringsSize argv - nap.space.memStart =
      mid - nap.space.memStart + stringsSize argv := by omega
  simp only [List.nil_append, stringsSize_nil, Nat.add_zero, second] at last
  have run : fillStack nap argv envv base = .ok (((((c₂.word 0).auxv atEntry
      nap.userEntryPt).auxv atBase nap.dynamicTextStart).word atNull).word 0) := by
    rw [fillStack, mid_eq]
    dsimp only
    rw [run₁]
    change (envv.foldlM (Cursor.string nap) (c₁.word 0) >>= _) = _
    rw [run₂]
    rfl
  refine ⟨_, run, ?_⟩
  rw [tableWords, pairWords_auxvPairs]
  simpa only [List.append_assoc, List.cons_append, List.nil_append] using last

theorem Fits.built {nap : NaClApp} {argv envv : List CString} (fits : Fits nap argv envv) :
    ∃ stackPtr c, Built nap argv envv stackPtr c ∧ naClCreateMainThread nap argv envv =
        .ok (some ⟨stackPtr, imageSize nap argv envv, c.writes ++ [returnAddress stackPtr]⟩) := by
  have stack := fits.stack
  have top := fits.top
  have contents : stringsSize argv + stringsSize envv + ptrTblSize nap argv.length envv.length ≤
      imageSize nap argv envv := le_alignStack _
  have multiple : imageSize nap argv envv % 16 = 0 := alignStack_mod _
  have aligned := nap.aligned
  have bits := nap.addrBits
  have stackTop_eq : naClGetInitialStackTop nap = 2 ^ 32 - 2 ^ 16 := by
    rw [naClGetInitialStackTop, bits, naClMapPageSize]
  rw [naClMapPageSize] at aligned
  have translated : naClUserToSysAddrRange nap.space
      (naClGetInitialStackTop nap - imageSize nap argv envv) (imageSize nap argv envv) =
      some (naClGetInitialStackTop nap - imageSize nap argv envv + nap.space.memStart) := by
    rw [naClUserToSysAddrRange, bits, if_neg (by omega), if_neg (by omega), if_neg (by omega)]
  have end_eq : stackTop nap = nap.space.memStart + naClGetInitialStackTop nap := rfl
  generalize stackPtr_eq : naClGetInitialStackTop nap - imageSize nap argv envv +
    nap.space.memStart = stackPtr at translated
  obtain ⟨c, run, holds⟩ := @fillStack_holds nap argv envv stackPtr (by omega)
    (by rw [bits]; omega)
  have filled := holds.p
  rw [length_tableWords] at filled
  refine ⟨stackPtr, c, ⟨by omega, by omega, holds⟩, ?_⟩
  rw [naClCreateMainThread, if_neg (by rw [sizeTMax]; omega), if_neg (Nat.not_lt.mpr stack),
    translated]
  dsimp only
  rw [if_neg (by rw [naClStackAlignMask]; omega), run]
  exact if_neg (not_not.mpr filled)

section Image

variable {nap : NaClApp} {argv envv : List CString} {stackPtr : Nat} {c : Cursor}

theorem Built.within (built : Built nap argv envv stackPtr c) :
    ∀ w ∈ c.writes, w.Within stackPtr (stackTop nap) := by
  have top := built.top
  have contents : stringsSize argv + stringsSize envv + ptrTblSize nap argv.length envv.length ≤
      imageSize nap argv envv := le_alignStack _
  intro w hw
  cases List.mem_append.mp (built.holds.writes.mem_iff.mp hw) with
  | inl table =>
    have within := within_placeFrom table
    rw [length_flatten_words, length_tableWords] at within
    exact within.mono (Nat.le_refl _) (by omega)
  | inr text =>
    have within := within_placeFrom text
    rw [length_flatten_strings, stringsSize_append] at within
    exact within.mono (Nat.le_add_right _ _) (by omega)

/-- No write touches what another one has written. -/
theorem Built.apart (built : Built nap argv envv stackPtr c) : c.writes.Pairwise Apart := by
  refine pairwise_perm (apart_placeFrom_append ?_) built.holds.writes.symm
  rw [length_flatten_words, length_tableWords]

theorem returnAddress_within (inside : nap.space.memStart + 16 ≤ stackPtr) :
    (returnAddress stackPtr).Within nap.space.memStart stackPtr := by
  simp only [Within, limit, returnAddress, naClStackPadBelowAlign, List.length_replicate]
  omega

theorem Built.all_apart (built : Built nap argv envv stackPtr c) :
    (c.writes ++ [returnAddress stackPtr]).Pairwise Apart := by
  refine List.pairwise_append.mpr ⟨built.apart, List.pairwise_singleton _ _, fun w hw v hv => ?_⟩
  rw [List.mem_singleton.mp hv]
  exact ((returnAddress_within built.inside).apart (built.within w hw)).symm

variable (mem : Nat → BitVec 8)

theorem Built.finds (built : Built nap argv envv stackPtr c) :
    Finds (wordAt (applyAll mem (c.writes ++ [returnAddress stackPtr])) stackPtr)
      (tableWords nap (stackPtr + ptrTblSize nap argv.length envv.length - nap.space.memStart)
        argv envv) := by
  intro i w at_i
  have inside := (List.getElem?_eq_some_iff.mp at_i).1
  have written : ⟨stackPtr + 4 * i, leBytes 4 w⟩ ∈ c.writes ++ [returnAddress stackPtr] := by
    refine List.mem_append_left _ (built.holds.writes.mem_iff.mpr (List.mem_append_left _ ?_))
    have placed := @mem_placeFrom _ stackPtr _ i (leBytes 4 w)
      (by rw [List.getElem?_map, at_i]; rfl)
    rw [← List.map_take, length_flatten_words, List.length_take,
      Nat.min_eq_left (Nat.le_of_lt inside)] at placed
    exact placed
  have bytes := @bytesAt_applyAll _ mem _ _ built.all_apart written
  dsimp only at bytes
  rw [length_leBytes] at bytes
  rw [wordAt, bytes, leValue_leBytes]
  rfl

theorem Built.stringAt (built : Built nap argv envv stackPtr c) {i : Nat} {s : CString}
    (at_i : (argv ++ envv)[i]? = some s) :
    StringAt (applyAll mem (c.writes ++ [returnAddress stackPtr]))
      (stackPtr + ptrTblSize nap argv.length envv.length +
        stringsSize ((argv ++ envv).take i)) s := by
  have written : ⟨stackPtr + ptrTblSize nap argv.length envv.length +
      stringsSize ((argv ++ envv).take i), s.terminated⟩ ∈
      c.writes ++ [returnAddress stackPtr] := by
    refine List.mem_append_left _ (built.holds.writes.mem_iff.mpr (List.mem_append_right _ ?_))
    have placed := @mem_placeFrom _ (stackPtr + ptrTblSize nap argv.length envv.length) _ i
      s.terminated (by rw [List.getElem?_map, at_i]; rfl)
    rwa [← List.map_take, length_flatten_strings] at placed
  have bytes := @bytesAt_applyAll _ mem _ _ built.all_apart written
  dsimp only at bytes
  rwa [s.length_terminated] at bytes

theorem stringsSize_take_le (strings : List CString) (i : Nat) :
    stringsSize (strings.take i) ≤ stringsSize strings := by
  have split := stringsSize_append (strings.take i) (strings.drop i)
  rw [List.take_append_drop] at split
  omega

theorem Built.decodes (built : Built nap argv envv stackPtr c) :
    Decodes (applyAll mem (c.writes ++ [returnAddress stackPtr])) nap.space.memStart stackPtr
      argv envv (auxvOf nap) := by
  have finds := built.finds mem
  have strings := fun i s => @Built.stringAt _ _ _ _ _ mem built i s
  generalize applyAll mem (c.writes ++ [returnAddress stackPtr]) = image at finds strings
  have top := built.top
  have inside := built.inside
  have contents : stringsSize argv + stringsSize envv + ptrTblSize nap argv.length envv.length ≤
      imageSize nap argv envv := le_alignStack _
  have small : argv.length + envv.length < 2 ^ 32 ∧
      stackPtr + imageSize nap argv envv < nap.space.memStart + 2 ^ 32 := by
    rw [stackTop, naClGetInitialStackTop, nap.addrBits, naClMapPageSize] at top
    have := length_tableWords nap 0 argv envv
    rw [ptrTblSize] at contents
    omega
  have room : stackPtr + ptrTblSize nap argv.length envv.length - nap.space.memStart +
      stringsSize argv + stringsSize envv < 2 ^ 32 := by omega
  have above : nap.space.memStart ≤ stackPtr + ptrTblSize nap argv.length envv.length := by omega
  generalize stackPtr + ptrTblSize nap argv.length envv.length = mid at finds strings room above
  obtain ⟨argvPart, argvEnd, envpPart, envpEnd⟩ := tableWords_parts nap (mid - nap.space.memStart)
    argv envv
  have pointer {i : Nat} {l : List CString} {user k : Nat} (room : user + stringsSize l < 2 ^ 32)
      (inside : i < l.length) (part : (tableWords nap (mid - nap.space.memStart) argv envv)[k]? =
        (pointersFrom user l)[i]?) :
      wordAt image stackPtr k = user + stringsSize (l.take i) := by
    have le := stringsSize_take_le l i
    rw [finds k _ (part.trans (getElem?_pointersFrom inside)), Nat.mod_eq_of_lt (by omega)]
  refine ⟨finds 0 0 (by simp [tableWords]), ?_, ?_, fun i s at_i => ?_,
    (finds _ 0 argvEnd).trans rfl, fun i s at_i => ?_, (finds _ 0 envpEnd).trans rfl, ?_⟩
  · exact (finds 1 envv.length (by simp [tableWords])).trans (Nat.mod_eq_of_lt (by omega))
  · exact (finds 2 argv.length (by simp [tableWords])).trans (Nat.mod_eq_of_lt (by omega))
  · have within := (List.getElem?_eq_some_iff.mp at_i).1
    have here := strings i s (by rw [List.getElem?_append_left within, at_i])
    rw [List.take_append_of_le_length (Nat.le_of_lt within)] at here
    rw [pointer (by omega) within (argvPart i within)]
    rwa [show nap.space.memStart + (mid - nap.space.memStart + stringsSize (argv.take i)) =
      mid + stringsSize (argv.take i) by omega]
  · have within := (List.getElem?_eq_some_iff.mp at_i).1
    have here := strings (argv.length + i) s (by
      rw [List.getElem?_append_right (Nat.le_add_right _ _), Nat.add_sub_cancel_left, at_i])
    rw [List.take_length_add_append, stringsSize_append] at here
    rw [pointer (by omega) within (envpPart i within)]
    rwa [show nap.space.memStart + (mid - nap.space.memStart + stringsSize argv +
      stringsSize (envv.take i)) = mid + (stringsSize argv + stringsSize (envv.take i)) by omega]
  · -- the pairs stand behind the two NULL pointers
    have front : ([0, envv.length, argv.length] ++ pointersFrom (mid - nap.space.memStart) argv ++
        [0] ++ pointersFrom (mid - nap.space.memStart + stringsSize argv) envv ++ [0]).length =
        3 + argv.length + 1 + envv.length + 1 := by
      simp only [List.length_append, length_pointersFrom, List.length_cons, List.length_nil]
    have auxv := Finds.auxv _ (auxvPairs_tags nap) finds
    rwa [front] at auxv

end Image

/-! ## The whole call -/

/-- What a started program relies on. -/
structure StackImage (nap : NaClApp) (argv envv : List CString) (mem : Nat → BitVec 8)
    (image : Image) : Prop where
  size : image.size = imageSize nap argv envv
  top : image.stackPtr + image.size = stackTop nap
  /-- Beside the return address, everything is written inside of the image. -/
  within : ∃ writes, image.writes = writes ++ [returnAddress image.stackPtr] ∧
    ∀ w ∈ writes, w.Within image.stackPtr (stackTop nap)
  apart : image.writes.Pairwise Apart
  decodes : Decodes (applyAll mem image.writes) nap.space.memStart image.stackPtr argv envv
    (auxvOf nap)
  exactly : ∀ argv' envv' auxv', Decodes (applyAll mem image.writes) nap.space.memStart
    image.stackPtr argv' envv' auxv' → argv' = argv ∧ envv' = envv ∧ auxv' = auxvOf nap

theorem naClCreateMainThread_stackImage {nap : NaClApp} {argv envv : List CString}
    (fits : Fits nap argv envv) (mem : Nat → BitVec 8) :
    ∃ image, naClCreateMainThread nap argv envv = .ok (some image) ∧
      StackImage nap argv envv mem image := by
  obtain ⟨stackPtr, c, built, run⟩ := fits.built
  have decodes := built.decodes mem
  exact ⟨_, run, rfl, built.top, ⟨c.writes, rfl, built.within⟩, built.all_apart, decodes,
    fun _ _ _ other => other.unique decodes⟩

/-- Arguments that do not fit are refused; no check fails. -/
theorem naClCreateMainThread_of_not_fits {nap : NaClApp} {argv envv : List CString}
    (large : ¬ Fits nap argv envv) : naClCreateMainThread nap argv envv = .ok none := by
  rw [naClCreateMainThread]
  split
  · rfl
  · split
    · rfl
    · next stack =>
      have top : naClGetInitialStackTop nap ≤ imageSize nap argv envv :=
        Nat.le_of_not_lt fun top => large ⟨Nat.le_of_not_lt stack, top⟩
      rw [Nat.sub_eq_zero_of_le top]
      rfl

/-- A sandbox at 4 GiB with a stack of one page. -/
def pageStackApp : NaClApp where
  space := ⟨32, 2 ^ 32, fourGigabytes_inSpace⟩
  stackSize := 2 ^ 16
  userEntryPt := 0x20000
  dynamicTextStart := 0
  addrBits := rfl
  aligned := by decide

def echo : CString := ⟨[101, 99, 104, 111], by decide⟩
def home : CString := ⟨[72, 61, 47], by decide⟩

theorem naClCreateMainThread_stackImage_echo :
    ∃ image, naClCreateMainThread pageStackApp [echo] [home] = .ok (some image) ∧
      StackImage pageStackApp [echo] [home] (fun _ => 0) image :=
  naClCreateMainThread_stackImage ⟨by decide, by decide⟩ fun _ => 0

/-- The dummy return address stands below the image. -/
theorem naClCreateMainThread_not_within :
    ∃ image, Fits pageStackApp [echo] [home] ∧
      naClCreateMainThread pageStackApp [echo] [home] = .ok (some image) ∧
      ∃ w ∈ image.writes, ¬ w.Within (stackTop pageStackApp - image.size)
        (stackTop pageStackApp) := by
  have fits : Fits pageStackApp [echo] [home] := ⟨by decide, by decide⟩
  obtain ⟨stackPtr, c, built, run⟩ := fits.built
  refine ⟨_, fits, run, returnAddress stackPtr, List.mem_append_right _ List.mem_cons_self, ?_⟩
  intro within
  have low := within.1
  have top := built.top
  have inside := built.inside
  simp only [returnAddress, naClStackPadBelowAlign] at low
  omega

end SandboxTEE.Startup
