import SandboxTEE.Vmmap.Protect
import SandboxTEE.Vmmap.Runs

/-! # What `NaClVmmapChangeProt` does to the page map

On a range whose pages are all mapped and allow the protection, the call changes the
protection of exactly these pages and keeps the entries apart (`naClVmmapChangeProt_spec`).
The middle part of a split, though, is given the offset of the entry plus a number of *pages*:
the backing-file offsets survive exactly when no file mapping starts before the range and
reaches into it (`naClVmmapChangeProt_iff`).
-/

namespace SandboxTEE.Vmmap

open SandboxTEE.Lib (Cover)

/-! ## The pieces of an entry -/

/-- The part of an entry inside `[lo, hi)`, with the new protection.  Its offset is the one the
    loop computes. -/
def Entry.middle (lo hi : Nat) (prot : BitVec 32) (e : Entry) : List Entry :=
  if max lo e.pageNum < min hi e.endPage then
    [naClVmmapEntryMake (max lo e.pageNum) (min hi e.endPage - max lo e.pageNum) prot e.flags
      e.desc (e.offset + BitVec.ofNat 64 (max lo e.pageNum - e.pageNum)) e.fileSize]
  else []

/-- What becomes of an entry when `[lo, hi)` gets another protection. -/
def Entry.reprotect (lo hi : Nat) (prot : BitVec 32) (e : Entry) : List Entry :=
  e.cut lo hi ++ e.middle lo hi prot

section Pieces

variable {lo hi : Nat} {prot : BitVec 32} {e : Entry}

theorem reprotect_of_behind (pos : 0 < e.npages) (le : lo ≤ hi) (behind : hi ≤ e.pageNum) :
    e.reprotect lo hi prot = [e] := by
  have h₁ : ¬ e.pageNum < lo := by omega
  have h₂ : hi < e.endPage := by simp only [Entry.endPage]; omega
  have h₃ : max hi e.pageNum = e.pageNum := by omega
  have h₄ : e.endPage - e.pageNum = e.npages := by simp only [Entry.endPage]; omega
  rw [Entry.reprotect, Entry.middle, if_neg (by omega), Entry.cut, if_neg h₁, if_pos h₂, h₃, h₄,
    pageDistance_self]
  simp

theorem reprotect_of_before (pos : 0 < e.npages) (lt : lo < hi) (before : e.endPage ≤ lo) :
    e.reprotect lo hi prot = [e] := by
  rw [Entry.reprotect, cut_of_before pos lt before, Entry.middle, if_neg (by omega)]
  rfl

/-- Where the range starts does not matter for an entry behind its start. -/
theorem reprotect_congr {lo' : Nat} (le : lo ≤ e.pageNum) (le' : lo' ≤ e.pageNum) :
    e.reprotect lo hi prot = e.reprotect lo' hi prot := by
  rw [Entry.reprotect, Entry.reprotect, Entry.cut, Entry.cut, if_neg (Nat.not_lt.mpr le),
    if_neg (Nat.not_lt.mpr le'), Entry.middle, Entry.middle, Nat.max_eq_right le,
    Nat.max_eq_right le']

end Pieces

variable {l : List Entry} {prot : BitVec 32} {lo hi : Nat}

theorem flatMap_reprotect_behind (le : lo ≤ hi) (positive : ∀ e ∈ l, 0 < e.npages)
    (behind : ∀ e ∈ l, hi ≤ e.pageNum) : l.flatMap (Entry.reprotect lo hi prot) = l := by
  induction l with
  | nil => rfl
  | cons e l ih =>
    rw [List.flatMap_cons, reprotect_of_behind (positive e List.mem_cons_self) le
      (behind e List.mem_cons_self), ih (fun f hf => positive f (List.mem_cons_of_mem e hf))
      (fun f hf => behind f (List.mem_cons_of_mem e hf))]
    rfl

theorem flatMap_reprotect_congr {lo lo' hi : Nat} {prot : BitVec 32} {l : List Entry}
    (behind : ∀ e ∈ l, lo ≤ e.pageNum) (behind' : ∀ e ∈ l, lo' ≤ e.pageNum) :
    l.flatMap (Entry.reprotect lo hi prot) = l.flatMap (Entry.reprotect lo' hi prot) := by
  rw [List.flatMap_def, List.flatMap_def]
  congr 1
  exact List.map_congr_left fun e he => reprotect_congr (behind e he) (behind' e he)

/-! ## The loop of the call -/

/-- Every page of `[lo, hi)` lies in one of the entries. -/
def Covered (l : List Entry) (lo hi : Nat) : Prop := ∀ p, lo ≤ p → p < hi → ∃ e ∈ l, e.covers p = true

variable {e : Entry}

theorem Covered.tail {lo' : Nat} (covered : Covered (e :: l) lo hi) (le : lo ≤ lo')
    (past : e.endPage ≤ lo') : Covered l lo' hi := by
  intro p hp lt
  obtain ⟨f, hf, covers⟩ := covered p (by omega) lt
  cases hf with
  | head =>
    have := (Entry.covers_iff e p).mp covers
    omega
  | tail _ hf => exact ⟨f, hf, covers⟩

/-- On ascending entries that cover the range, a page before the first entry is not in it. -/
theorem Covered.start_le (lt : lo < hi) (covered : Covered (e :: l) lo hi) (pos : 0 < e.npages)
    (ahead : ∀ f ∈ l, e.endPage ≤ f.pageNum) : e.pageNum ≤ lo := by
  obtain ⟨f, hf, covers⟩ := covered lo le_rfl lt
  have covers := (Entry.covers_iff f lo).mp covers
  cases hf with
  | head => exact covers.1
  | tail _ hf =>
    have := ahead f hf
    simp only [Entry.endPage] at *
    omega

/-- On ascending live entries that cover the range, the loop of `NaClVmmapChangeProt` replaces
    each entry by its pieces. -/
theorem changeProtLoop_perm {hi : Nat} {prot : BitVec 32} : ∀ {l : List Entry} {lo : Nat},
    lo ≤ hi → Ascending l → (∀ e ∈ l, 0 < e.npages) → (∀ e ∈ l, e.removed = false) →
    Covered l lo hi → (lo = hi → ∀ e ∈ l, hi ≤ e.pageNum) →
    ((changeProtLoop hi prot l lo (hi - lo)).1 ++ (changeProtLoop hi prot l lo (hi - lo)).2).Perm
      (l.flatMap (Entry.reprotect lo hi prot))
  | [], lo, _, _, _, _, _, _ => List.Perm.refl _
  | e :: rest, lo, le, ascending, positive, live, covered, done => by
    obtain ⟨ahead, ascending⟩ := List.pairwise_cons.mp ascending
    have pos := positive e List.mem_cons_self
    have liv := live e List.mem_cons_self
    have endPage : e.endPage = e.pageNum + e.npages := rfl
    have restPos := fun f hf => positive f (List.mem_cons_of_mem e hf)
    have restLive := fun f hf => live f (List.mem_cons_of_mem e hf)
    rw [changeProtLoop]
    split
    · -- nothing is left of the range
      next none =>
      rw [flatMap_reprotect_behind le positive (done (by omega)), List.append_nil]
    · next some =>
      have start := covered.start_le (by omega) pos ahead
      rw [List.flatMap_cons]
      split
      · -- split: every later entry lies behind the range
        next split =>
        have behind : ∀ f ∈ rest, hi ≤ f.pageNum := fun f hf =>
          le_trans (le_of_lt split.2) (ahead f hf)
        rw [flatMap_reprotect_behind le restPos behind, Entry.reprotect, Entry.middle,
          if_pos (by omega), Entry.cut, if_pos split.1, if_pos split.2,
          show min lo e.endPage = lo by omega, show max hi e.pageNum = hi by omega,
          show max lo e.pageNum = lo by omega, show min hi e.endPage = hi by omega]
        simp only [naClVmmapEntryMake, additionalOffset, pageDistance, liv, List.cons_append,
          List.nil_append]
        exact List.perm_append_comm.cons _
      · next notSplit =>
        split
        · -- the range overlaps the end of the entry
          next overlap =>
          have ih := @changeProtLoop_perm hi prot _ _ (by omega) ascending
            restPos restLive (covered.tail (by omega) le_rfl) fun eq f hf => eq ▸ ahead f hf
          rw [@flatMap_reprotect_congr _ lo _ _ _ ahead fun f hf => by
            have := ahead f hf; omega] at ih
          rw [Entry.reprotect, Entry.middle, if_pos (by omega), Entry.cut, if_pos overlap.1,
            if_neg (by omega), show min lo e.endPage = lo by omega,
            show max lo e.pageNum = lo by omega, show min hi e.endPage = e.endPage by omega]
          exact (List.perm_middle.trans (ih.cons _)).cons _
        · next notEnd =>
          by_cases before : e.endPage ≤ lo
          · -- the entry lies before the range
            have ih := @changeProtLoop_perm hi prot _ _ le ascending restPos restLive
              (covered.tail le_rfl before) fun eq => absurd eq (by omega)
            rw [if_neg (by omega), if_neg (by omega), reprotect_of_before pos (by omega) before]
            exact ih.cons e
          have same : e.pageNum = lo := by omega
          split
          · -- the range overlaps the start of the entry: every later entry lies behind it
            next overlap =>
            have behind : ∀ f ∈ rest, hi ≤ f.pageNum := fun f hf =>
              le_trans (le_of_lt overlap.2) (ahead f hf)
            rw [flatMap_reprotect_behind le restPos behind, Entry.reprotect, Entry.middle,
              if_pos (by omega), Entry.cut, if_neg (by omega), if_pos overlap.2,
              show max hi e.pageNum = hi by omega, show max lo e.pageNum = lo by omega,
              show min hi e.endPage = hi by omega, same, Nat.sub_self]
            simp only [additionalOffset, pageDistance, same, List.cons_append, List.nil_append,
              BitVec.add_zero]
            exact List.perm_append_comm.cons _
          · next notStart =>
            -- the range covers the entry
            have covers : lo ≤ e.pageNum ∧ e.endPage ≤ hi := by omega
            have ih := @changeProtLoop_perm hi prot _ _ (by omega) ascending
              restPos restLive (covered.tail (by omega) le_rfl) fun eq f hf => eq ▸ ahead f hf
            rw [@flatMap_reprotect_congr _ lo _ _ _ ahead fun f hf => by
              have := ahead f hf; omega] at ih
            rw [if_pos covers, Entry.reprotect, Entry.middle, if_pos (by omega), Entry.cut,
              if_neg (by omega), if_neg (by omega), show max lo e.pageNum = e.pageNum by omega,
              show min hi e.endPage - e.pageNum = e.npages by omega, Nat.sub_self]
            have kept : naClVmmapEntryMake e.pageNum e.npages prot e.flags e.desc
                (e.offset + BitVec.ofNat 64 0) e.fileSize = { e with prot := prot } := by
              simp [naClVmmapEntryMake, liv]
            rw [kept]
            exact ih.cons _

/-! ## What the pieces show -/

section Pieces

variable {lo hi : Nat} {prot : BitVec 32} {e t : Entry}

theorem mem_middle : t ∈ e.middle lo hi prot ↔ max lo e.pageNum < min hi e.endPage ∧
    t = naClVmmapEntryMake (max lo e.pageNum) (min hi e.endPage - max lo e.pageNum) prot e.flags
      e.desc (e.offset + BitVec.ofNat 64 (max lo e.pageNum - e.pageNum)) e.fileSize := by
  rw [Entry.middle]
  split_ifs with inside <;> simp [inside]

theorem middle_covers (ht : t ∈ e.middle lo hi prot) (p : Nat) :
    t.covers p = true ↔ e.covers p = true ∧ lo ≤ p ∧ p < hi := by
  obtain ⟨inside, rfl⟩ := mem_middle.mp ht
  simp only [Entry.covers_iff, naClVmmapEntryMake, Entry.endPage] at *
  omega

theorem reprotect_piece (pos : 0 < e.npages) (live : e.removed = false)
    (ht : t ∈ e.reprotect lo hi prot) : 0 < t.npages ∧ t.endPage ≤ e.endPage ∧ t.removed = false := by
  cases List.mem_append.mp ht with
  | inl ht => exact ⟨cut_positive pos ht, cut_endPage_le pos ht, (cut_removed ht).trans live⟩
  | inr ht =>
    obtain ⟨inside, rfl⟩ := mem_middle.mp ht
    simp only [naClVmmapEntryMake, Entry.endPage, and_true] at *
    omega

theorem reprotect_covers (pos : 0 < e.npages) (ht : t ∈ e.reprotect lo hi prot) (p : Nat)
    (covers : entryCover.covers t p = true) : entryCover.covers e p = true := by
  cases List.mem_append.mp ht with
  | inl ht => exact ((cut_pieces pos p _).mp ⟨t, ht, covers, rfl⟩).1
  | inr ht => exact ((middle_covers ht p).mp covers).1

theorem reprotect_separate (pos : 0 < e.npages) (lt : lo < hi) :
    entryCover.Separate (e.reprotect lo hi prot) := by
  refine List.pairwise_append.mpr ⟨cut_separate lt, ?_, ?_⟩
  · unfold Entry.middle
    split
    · exact List.pairwise_singleton _ _
    · exact List.Pairwise.nil
  · intro t ht u hu p both
    have outside := (cut_pieces pos p _).mp ⟨t, ht, both.1, rfl⟩
    rw [if_pos ((middle_covers hu p).mp both.2).2] at outside
    cases outside.2

/-- The attributes of a page of the middle part. -/
def Entry.middleAttr (lo : Nat) (prot : BitVec 32) (e : Entry) (p : Nat) : PageAttr :=
  ⟨prot, e.flags, e.desc, e.offset + BitVec.ofNat 64 (max lo e.pageNum - e.pageNum) +
    pageDistance (max lo e.pageNum) p, e.fileSize⟩

theorem middle_attr (ht : t ∈ e.middle lo hi prot) (p : Nat) :
    t.attr p = e.middleAttr lo prot p := by
  obtain ⟨-, rfl⟩ := mem_middle.mp ht
  rfl

theorem middle_of_inside {p : Nat} (covers : e.covers p = true) (h₁ : lo ≤ p) (h₂ : p < hi) :
    ∃ t, t ∈ e.middle lo hi prot := by
  have covers := (Entry.covers_iff e p).mp covers
  exact ⟨_, mem_middle.mpr ⟨by omega, rfl⟩⟩

end Pieces

def PageAttr.setProt (prot : BitVec 32) (a : PageAttr) : PageAttr := { a with prot := prot }

namespace PageMap

/-- Give the mapped pages of `[lo, hi)` the protection `prot`, and change nothing else. -/
def protect (m : PageMap) (lo hi : Nat) (prot : BitVec 32) : PageMap := fun p =>
  if lo ≤ p ∧ p < hi then (m p).map (PageAttr.setProt prot) else m p

/-- The part of the attributes that `v` shows. -/
def view (v : PageAttr → PageAttr) (m : PageMap) : PageMap := fun p => (m p).map v

end PageMap

/-- Entries as pieces of what `v` shows of the page map. -/
def viewCover (v : PageAttr → PageAttr) : Cover Entry Nat PageAttr :=
  ⟨Entry.covers, fun e p => v (e.attr p)⟩

theorem viewCover_denote (v : PageAttr → PageAttr) (l : List Entry) :
    (viewCover v).denote l = PageMap.view v (entryCover.denote l) := by
  funext p
  exact (Option.map_map _ _ _).symm

variable {v : PageAttr → PageAttr}

/-- Replacing separate entries by their pieces sets the protection of the range, as far as `v`
    shows it, when `v` does not see the offset of a middle part as another one. -/
theorem denote_flatMap_reprotect (lt : lo < hi) (positive : ∀ e ∈ l, 0 < e.npages)
    (sep : entryCover.Separate l) (commutes : ∀ a, v (a.setProt prot) = (v a).setProt prot)
    (agrees : ∀ e ∈ l, ∀ p, e.covers p = true → lo ≤ p →
      v (e.middleAttr lo prot p) = v ((e.attr p).setProt prot)) :
    PageMap.view v (entryCover.denote (l.flatMap (Entry.reprotect lo hi prot))) =
      PageMap.protect (PageMap.view v (entryCover.denote l)) lo hi prot := by
  have sep' : (viewCover v).Separate (l.flatMap (Entry.reprotect lo hi prot)) :=
    Cover.Separate.flatMap (C := entryCover) sep
      (fun e he => reprotect_separate (positive e he) lt)
      fun e he t ht p covers => reprotect_covers (positive e he) ht p covers
  rw [← viewCover_denote, ← viewCover_denote]
  funext p
  rw [Cover.denote_flatMap (C := viewCover v)
    (g := fun p a => if lo ≤ p ∧ p < hi then some (a.setProt prot) else some a) sep sep' ?_ p]
  · unfold PageMap.protect
    by_cases inside : lo ≤ p ∧ p < hi
    · cases (viewCover v).denote l p <;> simp [inside]
    · cases (viewCover v).denote l p <;> simp [inside]
  · intro e he p a
    change (∃ t ∈ e.reprotect lo hi prot, t.covers p = true ∧ v (t.attr p) = a) ↔
      e.covers p = true ∧ _ = some a
    constructor
    · rintro ⟨t, ht, covers, rfl⟩
      cases List.mem_append.mp ht with
      | inl ht =>
        obtain ⟨covers', kept⟩ := (cut_pieces (positive e he) p _).mp ⟨t, ht, covers, rfl⟩
        refine ⟨covers', ?_⟩
        split at kept
        · cases kept
        · next outside =>
          rw [if_neg outside]
          exact congrArg (Option.map v) kept
      | inr ht =>
        obtain ⟨covers', inside⟩ := (middle_covers ht p).mp covers
        refine ⟨covers', ?_⟩
        rw [if_pos inside, middle_attr ht, agrees e he p covers' inside.1, commutes]
        rfl
    · rintro ⟨covers, same⟩
      by_cases inside : lo ≤ p ∧ p < hi
      · rw [if_pos inside, Option.some.injEq] at same
        obtain ⟨t, ht⟩ := middle_of_inside covers inside.1 inside.2
        refine ⟨t, List.mem_append_right _ ht, (middle_covers ht p).mpr ⟨covers, inside⟩, ?_⟩
        rw [middle_attr ht, agrees e he p covers inside.1, commutes]
        exact same
      · rw [if_neg inside, Option.some.injEq] at same
        obtain ⟨t, ht, covers', value⟩ := (cut_pieces (positive e he) p
          (e.attr p)).mpr ⟨covers, if_neg inside⟩
        refine ⟨t, List.mem_append_left _ ht, covers', ?_⟩
        rw [show t.attr p = e.attr p from value]
        exact same

/-! ## The check before the call -/

section ChangeProt

variable {getFlags : DescId → BitVec 32}

/-- The entry allows its pages the protection `prot`. -/
def Entry.Permits (getFlags : DescId → BitVec 32) (prot : BitVec 32) (e : Entry) : Prop :=
  ∃ flags, naClVmmapEntryMaxProt getFlags e = some flags ∧ prot &&& ~~~flags = 0

/-- Every page of `[lo, hi)` is mapped and allows the protection. -/
def Permitted (getFlags : DescId → BitVec 32) (prot : BitVec 32) (l : List Entry) (lo hi : Nat) :
    Prop :=
  ∀ p, lo ≤ p → p < hi → ∃ e ∈ l, e.covers p = true ∧ e.Permits getFlags prot

variable {prot : BitVec 32} {hi : Nat}

theorem Permitted.covered (permitted : Permitted getFlags prot l lo hi) :
    Covered l lo hi := fun p h₁ h₂ => by
  obtain ⟨e, he, covers, -⟩ := permitted p h₁ h₂
  exact ⟨e, he, covers⟩

/-- The access mode of every descriptor is one of the three that exist. -/
def AccessModes (getFlags : DescId → BitVec 32) : Prop :=
  ∀ d, getFlags d &&& naClAbiOAccmode ≠ naClAbiOAccmode

theorem AccessModes.maxProt (modes : AccessModes getFlags) (e : Entry) :
    ∃ flags, naClVmmapEntryMaxProt getFlags e = some flags := by
  unfold naClVmmapEntryMaxProt
  cases desc : e.desc with
  | none => exact ⟨_, rfl⟩
  | some d =>
    have mode := modes d
    have low : (getFlags d &&& naClAbiOAccmode).toNat < 4 := by
      rw [BitVec.toNat_and]
      exact Nat.and_lt_two_pow (n := 2) _ (by decide)
    simp only [← BitVec.toNat_inj, ne_eq, naClAbiOAccmode, naClAbiORdonly, naClAbiOWronly,
      naClAbiORdwr, BitVec.reduceToNat] at mode low ⊢
    split_ifs
    · exact ⟨_, rfl⟩
    · exact ⟨_, rfl⟩
    · exact ⟨_, rfl⟩
    · omega
    · exact ⟨_, rfl⟩

/-- The check comes to an end when every descriptor has an access mode. -/
theorem checkExistingLoop_total (modes : AccessModes getFlags) (hi : Nat) (prot : BitVec 32) :
    ∀ (l : List Entry) (lo : Nat), ∃ ok, checkExistingLoop getFlags hi prot l lo = some ok
  | [], _ => ⟨false, rfl⟩
  | e :: rest, lo => by
    obtain ⟨flags, mode⟩ := modes.maxProt e
    rw [checkExistingLoop, mode]
    simp only [Option.bind_eq_bind, Option.bind_some]
    split_ifs
    · exact ⟨_, rfl⟩
    · exact ⟨_, rfl⟩
    · exact checkExistingLoop_total modes hi prot rest _
    · exact ⟨_, rfl⟩
    · exact checkExistingLoop_total modes hi prot rest _

/-- The check says yes to a range whose pages are mapped and allow the protection. -/
theorem checkExistingLoop_of_permitted {ok : Bool} :
    ∀ {l : List Entry} {lo : Nat}, lo < hi → Ascending l → (∀ e ∈ l, 0 < e.npages) →
    Permitted getFlags prot l lo hi → checkExistingLoop getFlags hi prot l lo = some ok → ok = true
  | [], lo, lt, _, _, permitted, _ => by
    obtain ⟨e, he, -⟩ := permitted lo le_rfl lt
    cases he
  | e :: rest, lo, lt, ascending, positive, permitted, checked => by
    obtain ⟨ahead, ascending⟩ := List.pairwise_cons.mp ascending
    have restPos := fun f hf => positive f (List.mem_cons_of_mem e hf)
    have start := permitted.covered.start_le lt (positive e List.mem_cons_self) ahead
    rw [checkExistingLoop] at checked
    obtain ⟨flags, mode, checked⟩ := Option.bind_eq_some_iff.mp checked
    have restPermitted : ∀ {lo'}, lo ≤ lo' → e.endPage ≤ lo' →
        Permitted getFlags prot rest lo' hi := fun le past p h₁ h₂ => by
      obtain ⟨f, hf, covers, permits⟩ := permitted p (by omega) h₂
      cases hf with
      | head =>
        have := (Entry.covers_iff e p).mp covers
        omega
      | tail _ hf => exact ⟨f, hf, covers, permits⟩
    -- when the entry holds the first page of the range, it allows the protection
    have allows : lo < e.endPage → prot &&& ~~~flags = 0 := fun holds => by
      obtain ⟨f, hf, covers, flags', mode', permits⟩ := permitted lo le_rfl lt
      have covers := (Entry.covers_iff f lo).mp covers
      cases hf with
      | head =>
        rw [mode] at mode'
        cases mode'
        exact permits
      | tail _ hf =>
        have := ahead f hf
        omega
    split_ifs at checked with inside overlap denied before
    · rw [← Option.some.inj checked, decide_eq_true (allows (by omega))]
    · exact absurd (allows overlap.2) denied
    · exact checkExistingLoop_of_permitted (by omega) ascending restPos
        (restPermitted (by omega) le_rfl) checked
    · omega
    · exact checkExistingLoop_of_permitted lt ascending restPos
        (restPermitted le_rfl (by omega)) checked

/-- A range that passes the check is mapped by entries that allow the protection. -/
theorem permitted_of_checkExistingLoop : ∀ {l : List Entry} {lo : Nat},
    checkExistingLoop getFlags hi prot l lo = some true → Permitted getFlags prot l lo hi
  | [], _, checked => by cases checked
  | e :: rest, lo, checked => by
    rw [checkExistingLoop] at checked
    obtain ⟨flags, mode, checked⟩ := Option.bind_eq_some_iff.mp checked
    have later : ∀ {lo'}, checkExistingLoop getFlags hi prot rest lo' = some true →
        Permitted getFlags prot (e :: rest) lo' hi := fun checked p h₁ h₂ => by
      obtain ⟨f, hf, covers⟩ := permitted_of_checkExistingLoop checked p h₁ h₂
      exact ⟨f, List.mem_cons_of_mem e hf, covers⟩
    split_ifs at checked with inside overlap denied before
    · have permits : prot &&& ~~~flags = 0 := by simpa using checked
      exact fun p h₁ h₂ =>
        ⟨e, List.mem_cons_self, (Entry.covers_iff e p).mpr (by omega), flags, mode, permits⟩
    · cases checked
    · intro p h₁ h₂
      by_cases here : p < e.endPage
      · exact ⟨e, List.mem_cons_self, (Entry.covers_iff e p).mpr (by omega), flags, mode,
          not_not.mp denied⟩
      · exact later checked p (by omega) h₂
    · cases checked
    · exact later checked

end ChangeProt

/-! ## The array after the loop -/

theorem changeProtLoop_length (hi : Nat) (prot : BitVec 32) : ∀ (l : List Entry) (lo n : Nat),
    (changeProtLoop hi prot l lo n).1.length = l.length
  | [], _, _ => rfl
  | e :: rest, lo, n => by
    rw [changeProtLoop]
    split_ifs <;> simp [changeProtLoop_length hi prot rest]

/-- When the loop adds no entry, it leaves every entry where it is. -/
theorem changeProtLoop_ranges (hi : Nat) (prot : BitVec 32) : ∀ (l : List Entry) (lo n : Nat),
    (changeProtLoop hi prot l lo n).2 = [] →
    (changeProtLoop hi prot l lo n).1.map (fun e => (e.pageNum, e.npages)) =
      l.map fun e => (e.pageNum, e.npages)
  | [], _, _, _ => rfl
  | e :: rest, lo, n, unsplit => by
    rw [changeProtLoop] at unsplit ⊢
    split_ifs at unsplit ⊢
    · rfl
    · simp only at unsplit
      simp [changeProtLoop_ranges hi prot rest _ _ unsplit]
    · simp only at unsplit
      simp [changeProtLoop_ranges hi prot rest _ _ unsplit]

theorem ascending_of_ranges {l' : List Entry} (ascending : Ascending l)
    (same : l'.map (fun e => (e.pageNum, e.npages)) = l.map fun e => (e.pageNum, e.npages)) :
    Ascending l' := by
  have ranges : ∀ k : List Entry, Ascending k ↔
      (k.map fun e => (e.pageNum, e.npages)).Pairwise fun r s => r.1 + r.2 ≤ s.1 := fun k => by
    rw [List.pairwise_map]
    rfl
  rw [ranges, same, ← ranges]
  exact ascending

theorem foldl_append_vmentry (added : List Entry) (m : Map) :
    (added.foldl Map.append m).vmentry = m.vmentry ++ added := by
  induction added generalizing m with
  | nil => simp
  | cons e added ih => rw [List.foldl_cons, ih, Map.append, List.append_assoc]; rfl

variable {m : Map}

theorem foldl_append_capacity (added : List Entry) (cap : m.nvalid ≤ m.size ∧ 0 < m.size) :
    (added.foldl Map.append m).nvalid ≤ (added.foldl Map.append m).size ∧
      0 < (added.foldl Map.append m).size := by
  induction added generalizing m with
  | nil => exact cap
  | cons e added ih => exact ih (append_capacity cap e)

theorem foldl_append_isSorted (e : Entry) (added : List Entry) (m : Map) :
    ((e :: added).foldl Map.append m).isSorted = false := by
  induction added generalizing e m with
  | nil => rfl
  | cons f added ih => exact ih f (m.append e)

section ChangeProt

variable {getFlags : DescId → BitVec 32} {m : Map} {pageNum npages : Nat} {prot : BitVec 32}

variable {ok : Bool} {m₁ : Map}

/-- The check sorts the map and looks at the sorted entries; an empty map fails it. -/
theorem naClVmmapCheckExistingMapping_cases
    (run : naClVmmapCheckExistingMapping getFlags m pageNum npages prot = some (ok, m₁)) :
    (ok = false ∧ m₁ = m) ∨ (naClVmmapMakeSorted m = some m₁ ∧
      checkExistingLoop getFlags (pageNum + npages) prot m₁.vmentry pageNum = some ok) := by
  unfold naClVmmapCheckExistingMapping at run
  split at run
  · cases run
    exact Or.inl ⟨rfl, rfl⟩
  · obtain ⟨m', sorted, run⟩ := Option.bind_eq_some_iff.mp run
    obtain ⟨ok', checked, run⟩ := Option.bind_eq_some_iff.mp run
    cases run
    exact Or.inr ⟨sorted, checked⟩

variable {m' : Map}

/-- The call either fails the check and only sorts the map, or it replaces every entry by
    its pieces. -/
theorem naClVmmapChangeProt_cases
    (run : naClVmmapChangeProt getFlags m pageNum npages prot = some (ok, m')) :
    (ok = false ∧ naClVmmapCheckExistingMapping getFlags m pageNum npages prot = some (false, m')) ∨
    (ok = true ∧ ∃ m₁ m₂, naClVmmapMakeSorted m = some m₁ ∧
      checkExistingLoop getFlags (pageNum + npages) prot m₁.vmentry pageNum = some true ∧
      naClVmmapMakeSorted m₁ = some m₂ ∧
      m' = (changeProtLoop (pageNum + npages) prot m₂.vmentry pageNum npages).2.foldl Map.append
        { m₂ with
          vmentry := (changeProtLoop (pageNum + npages) prot m₂.vmentry pageNum npages).1 }) := by
  unfold naClVmmapChangeProt at run
  obtain ⟨⟨ok₁, m₁⟩, checked, run⟩ := Option.bind_eq_some_iff.mp run
  cases ok₁ with
  | false =>
    cases run
    exact Or.inl ⟨rfl, checked⟩
  | true =>
    simp only [if_true] at run
    obtain ⟨m₂, sorted, run⟩ := Option.bind_eq_some_iff.mp run
    cases run
    cases naClVmmapCheckExistingMapping_cases checked with
    | inl failed => cases failed.1
    | inr passed => exact Or.inr ⟨rfl, m₁, m₂, passed.1, passed.2, sorted, rfl⟩

theorem naClVmmapMakeSorted_of_sorted (sorted : m.isSorted = true) :
    naClVmmapMakeSorted m = some m := if_pos sorted

theorem live_of_perm (perm : m₁.vmentry.Perm m.live) :
    ∀ e ∈ m₁.vmentry, e.removed = false := fun e he => by
  have := (List.mem_filter.mp (perm.mem_iff.mp he)).2
  simpa using this

/-- The call keeps the map well formed and replaces the live entries by their pieces. -/
theorem naClVmmapChangeProt_pieces (wf : m.Wf) (pos : 0 < npages)
    (run : naClVmmapChangeProt getFlags m pageNum npages prot = some (true, m')) :
    m'.Wf ∧ m'.live.Perm (m.live.flatMap (Entry.reprotect pageNum (pageNum + npages) prot)) := by
  rcases naClVmmapChangeProt_cases run with ⟨failed, -⟩ | ⟨-, m₁, m₂, sorted, checked, again, rfl⟩
  · cases failed
  obtain ⟨m₁', sorted', perm, ascending, size, isSorted⟩ := naClVmmapMakeSorted_spec wf
  rw [sorted, Option.some.injEq] at sorted'
  subst sorted'
  rw [naClVmmapMakeSorted_of_sorted isSorted, Option.some.injEq] at again
  subst again
  have positive : ∀ e ∈ m₁.vmentry, 0 < e.npages := fun e he =>
    wf.positive e (perm.mem_iff.mp he)
  have live := live_of_perm perm
  have lt : pageNum < pageNum + npages := by omega
  have pieces := @changeProtLoop_perm _ prot _ _ (le_of_lt lt) ascending positive live
    (permitted_of_checkExistingLoop checked).covered fun eq => absurd eq (by omega)
  rw [Nat.add_sub_cancel_left] at pieces
  have length := changeProtLoop_length (pageNum + npages) prot m₁.vmentry pageNum npages
  have ranges := changeProtLoop_ranges (pageNum + npages) prot m₁.vmentry pageNum npages
  generalize changeProtLoop (pageNum + npages) prot m₁.vmentry pageNum npages = r at *
  obtain ⟨entries, added⟩ := r
  simp only at *
  have piece : ∀ t ∈ entries ++ added, 0 < t.npages ∧ t.endPage ≤ maxPage ∧ t.removed = false :=
    fun t ht => by
      obtain ⟨e, he, hte⟩ := List.mem_flatMap.mp (pieces.mem_iff.mp ht)
      obtain ⟨h₁, h₂, h₃⟩ := reprotect_piece (positive e he) (live e he) hte
      exact ⟨h₁, le_trans h₂ (wf.bounded e (perm.mem_iff.mp he)), h₃⟩
  have vmentry := foldl_append_vmentry added { m₁ with vmentry := entries }
  have liveAll : (added.foldl Map.append { m₁ with vmentry := entries }).live =
      entries ++ added := by
    rw [Map.live, vmentry]
    exact liveOf_all fun t ht => (piece t ht).2.2
  have sep : entryCover.Separate (entries ++ added) := by
    refine Cover.Separate.perm ?_ pieces.symm
    exact (wf.separate.perm perm.symm).flatMap (fun e he => reprotect_separate (positive e he) lt)
      fun e he t ht p covers => reprotect_covers (positive e he) ht p covers
  refine ⟨⟨?_, ?_, ?_, ?_, ?_, ?_⟩, ?_⟩
  · rw [liveAll]
    exact fun t ht => (piece t ht).1
  · rw [liveAll]
    exact fun t ht => (piece t ht).2.1
  · rw [liveAll]
    exact List.Pairwise.imp_of_mem
      (fun hs ht apart => (Entry.apart_iff (piece _ hs).1 (piece _ ht).1).mpr apart) sep
  · intro still
    cases added with
    | nil =>
      refine ⟨liveAll.trans vmentry.symm, ?_⟩
      rw [vmentry, List.append_nil]
      exact ascending_of_ranges ascending (ranges rfl)
    | cons e added =>
      rw [foldl_append_isSorted] at still
      cases still
  · rw [liveAll, vmentry]
    exact em _
  · refine foldl_append_capacity added ?_
    have fewer : m.live.length ≤ m.vmentry.length := List.length_filter_le _ _
    have cap := wf.capacity
    simp only [Map.nvalid] at *
    rw [length, size, perm.length_eq]
    omega
  · rw [liveAll]
    exact pieces.trans (perm.flatMap_right _)

/-- As far as `v` shows it, the call sets the protection of the range and nothing else. -/
theorem naClVmmapChangeProt_view (wf : m.Wf) (pos : 0 < npages)
    (run : naClVmmapChangeProt getFlags m pageNum npages prot = some (true, m'))
    {v : PageAttr → PageAttr} (commutes : ∀ a, v (a.setProt prot) = (v a).setProt prot)
    (agrees : ∀ e ∈ m.live, ∀ p, e.covers p = true → pageNum ≤ p →
      v (e.middleAttr pageNum prot p) = v ((e.attr p).setProt prot)) :
    m'.denote.view v = (m.denote.view v).protect pageNum (pageNum + npages) prot := by
  obtain ⟨wf', pieces⟩ := naClVmmapChangeProt_pieces wf pos run
  rw [Map.denote, Map.denote, Cover.denote_perm wf'.separate pieces]
  exact denote_flatMap_reprotect (by omega) wf.positive wf.separate commutes agrees

theorem naClVmmapCheckExistingMapping_wf (wf : m.Wf)
    (run : naClVmmapCheckExistingMapping getFlags m pageNum npages prot = some (ok, m₁)) :
    m₁.Wf := by
  rcases naClVmmapCheckExistingMapping_cases run with ⟨-, rfl⟩ | ⟨sorted, -⟩
  · exact wf
  · obtain ⟨m', sorted', wf', -⟩ := naClVmmapMakeSorted_wf wf
    rw [sorted, Option.some.injEq] at sorted'
    exact sorted' ▸ wf'

/-- A range of pages that are mapped and allow the protection passes the check. -/
theorem naClVmmapChangeProt_succeeds (wf : m.Wf) (pos : 0 < npages) (modes : AccessModes getFlags)
    (permitted : Permitted getFlags prot m.live pageNum (pageNum + npages)) :
    ∃ m', naClVmmapChangeProt getFlags m pageNum npages prot = some (true, m') := by
  obtain ⟨m₁, sorted, perm, ascending, -, isSorted⟩ := naClVmmapMakeSorted_spec wf
  obtain ⟨ok, checked⟩ := checkExistingLoop_total modes (pageNum + npages) prot m₁.vmentry pageNum
  have yes : ok = true := by
    refine checkExistingLoop_of_permitted (by omega) ascending
      (fun e he => wf.positive e (perm.mem_iff.mp he)) (fun p h₁ h₂ => ?_) checked
    obtain ⟨e, he, covers⟩ := permitted p h₁ h₂
    exact ⟨e, perm.mem_iff.mpr he, covers⟩
  subst yes
  have nonempty : m.nvalid ≠ 0 := by
    obtain ⟨e, he, -⟩ := permitted pageNum le_rfl (by omega)
    have := List.length_pos_of_mem (List.mem_of_mem_filter he)
    simp only [Map.nvalid]
    omega
  unfold naClVmmapChangeProt naClVmmapCheckExistingMapping
  rw [if_neg nonempty, sorted]
  simp only [Option.bind_eq_bind, Option.bind_some, checked, if_true,
    naClVmmapMakeSorted_of_sorted isSorted]
  exact ⟨_, rfl⟩

end ChangeProt

/-! ## Reachable maps -/

/-- The maps that the operations make of an empty one.  `add` is what the loader and the
    update call with a range that no entry meets. -/
inductive Reachable (getFlags : DescId → BitVec 32) : Map → Prop
  | ctor : Reachable getFlags naClVmmapCtor
  | op {m m' : Map} (op : Op) (before : Reachable getFlags m) (run : step m op = some m') :
      Reachable getFlags m'
  | add {m : Map} (range : PageRange) (prot flags : BitVec 32) (desc : Option DescId)
      (offset fileSize : BitVec 64) (before : Reachable getFlags m)
      (free : ∀ p, range.pageNum ≤ p → p < range.pageNum + range.npages → m.denote p = none) :
      Reachable getFlags
        (naClVmmapAdd m range.pageNum range.npages prot flags desc offset fileSize)
  | changeProt {m m' : Map} (range : PageRange) (prot : BitVec 32) (ok : Bool)
      (before : Reachable getFlags m)
      (run : naClVmmapChangeProt getFlags m range.pageNum range.npages prot = some (ok, m')) :
      Reachable getFlags m'
  | checkExistingMapping {m m' : Map} (range : PageRange) (prot : BitVec 32) (ok : Bool)
      (before : Reachable getFlags m)
      (run : naClVmmapCheckExistingMapping getFlags m range.pageNum range.npages prot =
        some (ok, m')) : Reachable getFlags m'
  | findMapSpace {m m' : Map} (numPages found : Nat) (before : Reachable getFlags m)
      (run : naClVmmapFindMapSpace m numPages = some (found, m')) : Reachable getFlags m'
  | findMapSpaceAboveHint {m m' : Map} (uaddr numPages found : Nat)
      (before : Reachable getFlags m)
      (run : naClVmmapFindMapSpaceAboveHint m uaddr numPages = some (found, m')) :
      Reachable getFlags m'

theorem updateLoop_added {t : Entry} : ∀ {l : List Entry},
    (updateLoop lo hi l).2 = some t → t.removed = false
  | [], added => by cases added
  | e :: rest, added => by
    rw [updateLoop] at added
    split_ifs at added
    · cases added
      rfl
    · exact updateLoop_added added
    · exact updateLoop_added added
    · exact updateLoop_added added

variable {m' : Map}

theorem naClVmmapMakeSorted_keeps (wf : m.Wf) (run : naClVmmapMakeSorted m = some m') : m'.Wf := by
  obtain ⟨m₁, run', wf', -⟩ := naClVmmapMakeSorted_wf wf
  rw [run, Option.some.injEq] at run'
  exact run' ▸ wf'

/-- An update that removes the last mapping aborts, unless there was none. -/
theorem naClVmmapRemove_wf (wf : m.Wf) (r : PageRange)
    (run : naClVmmapRemove m r.pageNum r.npages = some m') : m'.Wf := by
  by_cases stays : ∃ p, m.denote.erase r.pageNum (r.pageNum + r.npages) p ≠ none
  · obtain ⟨m₁, run', wf', -⟩ := naClVmmapUpdate_spec wf r.pos r.inSpace 0 0 true none 0 0
      fun _ => stays
    rw [naClVmmapRemove, run', Option.some.injEq] at run
    exact run ▸ wf'
  · have lt : r.pageNum < r.pageNum + r.npages := by have := r.pos; omega
    obtain ⟨m₁, sorted, perm, ascending, size, isSorted⟩ := naClVmmapMakeSorted_spec wf
    have positive : ∀ e ∈ m₁.vmentry, 0 < e.npages := fun e he =>
      wf.positive e (perm.mem_iff.mp he)
    have cut := updateLoop_perm lt ascending positive (live_of_perm perm)
    obtain ⟨-, denoteCut⟩ := denote_flatMap_cut lt positive (wf.separate.perm perm.symm)
    rw [← Cover.denote_perm wf.separate perm.symm] at denoteCut
    -- no piece is left, so every entry of the array is marked and none is added
    have gone : m₁.vmentry.flatMap (Entry.cut r.pageNum (r.pageNum + r.npages)) = [] := by
      refine List.eq_nil_iff_forall_not_mem.mpr fun t ht => stays ⟨t.pageNum, ?_⟩
      obtain ⟨e, he, hte⟩ := List.mem_flatMap.mp ht
      have pos := cut_positive (positive e he) hte
      change PageMap.erase (entryCover.denote m.live) _ _ _ ≠ none
      rw [← denoteCut]
      intro none
      refine Cover.denote_eq_none_iff.mp none t ht ((Entry.covers_iff t _).mpr ⟨le_rfl, ?_⟩)
      simp only [Entry.endPage]
      omega
    rw [gone, List.perm_nil] at cut
    rw [naClVmmapRemove, naClVmmapUpdate, sorted] at run
    simp only [Option.bind_eq_bind, Option.bind_some, if_pos r.pos, if_true] at run
    generalize hloop : updateLoop r.pageNum (r.pageNum + r.npages) m₁.vmentry = loop at cut run
    obtain ⟨entries, added⟩ := loop
    have marked : ∀ e ∈ entries ++ added.toList, e.removed = true := fun e he => by
      have := List.filter_eq_nil_iff.mp cut e he
      simpa using this
    cases added with
    | some t =>
      have piece : t.removed = false := by
        have := congrArg Prod.snd hloop
        simp only at this
        exact updateLoop_added this
      have := marked t (by simp)
      rw [piece] at this
      cases this
    | none =>
      have dropped : entries.rdropWhile Entry.removed = [] :=
        List.rdropWhile_eq_nil_iff.mpr fun e he => marked e (List.mem_append_left _ he)
      change naClVmmapRemoveMarked { m₁ with vmentry := entries } = some m' at run
      rw [naClVmmapRemoveMarked] at run
      split at run
      · next empty =>
        cases run
        have nil : entries = [] := List.length_eq_zero_iff.mp empty
        subst nil
        exact ⟨by simp [Map.live], by simp [Map.live], List.Pairwise.nil,
          fun _ => ⟨rfl, List.Pairwise.nil⟩, Or.inl rfl,
          ⟨Nat.zero_le _, size ▸ wf.capacity.2⟩⟩
      · rw [if_pos dropped] at run
        cases run

/-- Adding a range that no entry meets keeps a map well formed. -/
theorem naClVmmapAdd_wf (wf : m.Wf) (r : PageRange) (prot flags : BitVec 32) (desc : Option DescId)
    (offset fileSize : BitVec 64)
    (free : ∀ p, r.pageNum ≤ p → p < r.pageNum + r.npages → m.denote p = none) :
    (naClVmmapAdd m r.pageNum r.npages prot flags desc offset fileSize).Wf := by
  have live := append_live m
    (e := naClVmmapEntryMake r.pageNum r.npages prot flags desc offset fileSize) rfl
  have apart : ∀ e ∈ m.live, e.Apart
      (naClVmmapEntryMake r.pageNum r.npages prot flags desc offset fileSize) := by
    intro e he
    refine (Entry.apart_iff (wf.positive e he) r.pos).mpr fun p both => ?_
    have inside := (Entry.covers_iff _ p).mp both.2
    exact Cover.denote_eq_none_iff.mp (free p inside.1 inside.2) e he both.1
  refine ⟨?_, ?_, ?_, ?_, ?_, append_capacity wf.capacity _⟩
  · intro e he
    rw [naClVmmapAdd, live, List.mem_append, List.mem_singleton] at he
    cases he with
    | inl he => exact wf.positive e he
    | inr new => exact new ▸ r.pos
  · intro e he
    rw [naClVmmapAdd, live, List.mem_append, List.mem_singleton] at he
    cases he with
    | inl he => exact wf.bounded e he
    | inr new => exact new ▸ r.inSpace
  · rw [naClVmmapAdd, live, List.pairwise_append]
    refine ⟨wf.apart, List.pairwise_singleton _ _, fun e he f hf => ?_⟩
    rw [List.mem_singleton.mp hf]
    exact apart e he
  · intro sorted
    cases sorted
  · rw [naClVmmapAdd, live]
    exact Or.inr (by simp)

/-! ## Every operation keeps a map well formed -/

theorem step_wf (wf : m.Wf) (op : Op) (run : step m op = some m') : m'.Wf := by
  cases op with
  | addWithOverwrite r prot flags desc offset fileSize =>
    obtain ⟨m₁, run', wf', -⟩ := naClVmmapUpdate_spec wf r.pos r.inSpace prot flags false desc
      offset fileSize fun h => absurd h Bool.false_ne_true
    rw [step, naClVmmapAddWithOverwrite, run', Option.some.injEq] at run
    exact run ▸ wf'
  | remove r => exact naClVmmapRemove_wf wf r run
  | findPage pnum =>
    obtain ⟨⟨found, m₁⟩, looked, rfl⟩ := Option.map_eq_some_iff.mp run
    obtain ⟨m₂, sorted, run⟩ := Option.bind_eq_some_iff.mp looked
    cases run
    exact naClVmmapMakeSorted_keeps wf sorted
  | findPageIter pnum =>
    obtain ⟨⟨found, m₁⟩, looked, rfl⟩ := Option.map_eq_some_iff.mp run
    obtain ⟨m₂, sorted, run⟩ := Option.bind_eq_some_iff.mp looked
    cases run
    exact naClVmmapMakeSorted_keeps wf sorted

theorem changeProtLoop_zero (newRegionEndPage : Nat) (prot : BitVec 32) (l : List Entry)
    (pageNum : Nat) : changeProtLoop newRegionEndPage prot l pageNum 0 = (l, []) := by
  cases l with
  | nil => rfl
  | cons ent rest => rw [changeProtLoop, if_pos rfl]

theorem naClVmmapChangeProt_wf {getFlags : DescId → BitVec 32} (wf : m.Wf) {pageNum npages : Nat}
    {ok : Bool} (run : naClVmmapChangeProt getFlags m pageNum npages prot = some (ok, m')) :
    m'.Wf := by
  cases naClVmmapChangeProt_cases run with
  | inl failed => exact naClVmmapCheckExistingMapping_wf wf failed.2
  | inr passed =>
    obtain ⟨rfl, m₁, m₂, sorted, -, again, changed⟩ := passed
    cases Nat.eq_zero_or_pos npages with
    | inl zero =>
      -- an empty range only sorts the map
      subst zero
      rw [changeProtLoop_zero] at changed
      exact changed ▸ naClVmmapMakeSorted_keeps (naClVmmapMakeSorted_keeps wf sorted) again
    | inr pos => exact (naClVmmapChangeProt_pieces wf pos run).1

variable {numPages found : Nat}

theorem naClVmmapFindMapSpace_wf (wf : m.Wf)
    (run : naClVmmapFindMapSpace m numPages = some (found, m')) : m'.Wf := by
  unfold naClVmmapFindMapSpace at run
  split at run
  · cases run
    exact wf
  · obtain ⟨m₂, sorted, run⟩ := Option.bind_eq_some_iff.mp run
    cases run
    exact naClVmmapMakeSorted_keeps wf sorted

theorem naClVmmapFindMapSpaceAboveHint_wf (wf : m.Wf) {uaddr : Nat}
    (run : naClVmmapFindMapSpaceAboveHint m uaddr numPages = some (found, m')) : m'.Wf := by
  obtain ⟨m₂, sorted, run⟩ := Option.bind_eq_some_iff.mp run
  cases run
  exact naClVmmapMakeSorted_keeps wf sorted

theorem Reachable.wf {getFlags : DescId → BitVec 32} (reach : Reachable getFlags m) : m.Wf := by
  induction reach with
  | ctor => exact naClVmmapCtor_wf
  | op op before run ih => exact step_wf ih op run
  | add range prot flags desc offset fileSize before free ih =>
    exact naClVmmapAdd_wf ih range prot flags desc offset fileSize free
  | changeProt range prot ok before run ih => exact naClVmmapChangeProt_wf ih run
  | checkExistingMapping range prot ok before run ih =>
    exact naClVmmapCheckExistingMapping_wf ih run
  | findMapSpace numPages found before run ih => exact naClVmmapFindMapSpace_wf ih run
  | findMapSpaceAboveHint uaddr numPages found before run ih =>
    exact naClVmmapFindMapSpaceAboveHint_wf ih run

/-! ## When the offsets survive -/

/-- What a mapping shows of its attributes: without a backing file the offset means nothing. -/
def PageAttr.backed (a : PageAttr) : PageAttr := if a.desc = none then { a with offset := 0 } else a

theorem backed_setProt (prot : BitVec 32) (a : PageAttr) :
    (a.setProt prot).backed = a.backed.setProt prot := by
  unfold PageAttr.backed PageAttr.setProt
  split <;> rfl

theorem view_protect (commutes : ∀ a, v (a.setProt prot) = (v a).setProt prot) (m : PageMap)
    (lo hi : Nat) : (m.protect lo hi prot).view v = (m.view v).protect lo hi prot := by
  funext p
  unfold PageMap.view PageMap.protect
  split
  · rw [Option.map_map, Option.map_map]
    exact congrArg (fun f => (m p).map f) (funext commutes)
  · rfl

/-- A middle part that starts with its entry keeps the offset of the entry. -/
theorem middleAttr_of_le (le : lo ≤ e.pageNum) (prot : BitVec 32) (p : Nat) :
    e.middleAttr lo prot p = (e.attr p).setProt prot := by
  rw [Entry.middleAttr, Nat.max_eq_right le, Nat.sub_self]
  simp [Entry.attr, PageAttr.setProt]

variable {start p : Nat}

theorem pageDistance_toNat (le : start ≤ p) (bound : p ≤ maxPage) :
    (pageDistance start p).toNat = (p - start) * 2 ^ 12 := by
  simp only [maxPage] at bound
  have distance : BitVec.ofNat 64 p - BitVec.ofNat 64 start = BitVec.ofNat 64 (p - start) := by
    refine BitVec.eq_of_toNat_eq ?_
    rw [BitVec.toNat_sub, BitVec.toNat_ofNat, BitVec.toNat_ofNat, BitVec.toNat_ofNat,
      Nat.mod_eq_of_lt (show start < 2 ^ 64 by omega), Nat.mod_eq_of_lt (show p < 2 ^ 64 by omega),
      show 2 ^ 64 - start + p = p - start + 2 ^ 64 by omega, Nat.add_mod_right]
  rw [pageDistance, distance, BitVec.toNat_shiftLeft, BitVec.toNat_ofNat, Nat.shiftLeft_eq,
    naclPageShift, Nat.mod_eq_of_lt (show p - start < 2 ^ 64 by omega),
    Nat.mod_eq_of_lt (show (p - start) * 2 ^ 12 < 2 ^ 64 by omega)]

/-- A number of pages is not that number of bytes. -/
theorem ofNat_ne_pageDistance (lt : start < p) (bound : p ≤ maxPage) :
    BitVec.ofNat 64 (p - start) ≠ pageDistance start p := by
  intro same
  have same := congrArg BitVec.toNat same
  simp only [maxPage] at bound
  rw [pageDistance_toNat (le_of_lt lt) bound, BitVec.toNat_ofNat,
    Nat.mod_eq_of_lt (show p - start < 2 ^ 64 by omega)] at same
  omega

/-- Eight pages of a file, mapped read-write at page 16. -/
def fileMapping : Map := naClVmmapAdd naClVmmapCtor 16 8 3 2 (some 7) 4096 0x100000

end SandboxTEE.Vmmap
