import SandboxTEE.Stdlib.QsortCorrect
import SandboxTEE.Vmmap.PageMap
import Mathlib.Tactic.NormNum

/-! # What the updates of the memory map do

* `naClVmmapRemoveMarked_spec`, `naClVmmapMakeSorted_spec`: purging and sorting keep
  the live entries, up to order.
* `updateLoop_perm`: on a sorted array the loop of `NaClVmmapUpdate` cuts the range
  out of every entry.  Its `break`s are justified by the order of the entries.
* `naClVmmapUpdate_spec`: the page map is overwritten, or erased, on the range.
-/

namespace SandboxTEE.Vmmap

open SandboxTEE.Lib (Cover)
open SandboxTEE.Stdlib (Compares qsort qsort_perm qsort_sorted)

/-! ## Well-formed maps -/

/-- Page numbers below this one keep the `int` difference of the sort comparator, and
    the `int` byte distances inside `qsort`, exact.  User address spaces have 2^20
    pages (`NACL_MAX_ADDR_BITS` is 32). -/
def maxPage : Nat := 2 ^ 28

/-- Entries in ascending order, each ending before the next one starts. -/
def Ascending (l : List Entry) : Prop := l.Pairwise fun e f => e.endPage ≤ f.pageNum

/-- What every map reachable by the operations satisfies. -/
structure Map.Wf (m : Map) : Prop where
  positive : ∀ e ∈ m.live, 0 < e.npages
  bounded : ∀ e ∈ m.live, e.endPage ≤ maxPage
  apart : m.live.Pairwise Entry.Apart
  sorted : m.isSorted = true → m.live = m.vmentry ∧ Ascending m.vmentry
  someLive : m.vmentry = [] ∨ m.live ≠ []
  capacity : m.nvalid ≤ m.size ∧ 0 < m.size

theorem naClVmmapCtor_wf : naClVmmapCtor.Wf where
  positive := fun e he => by simp [naClVmmapCtor, Map.live] at he
  bounded := fun e he => by simp [naClVmmapCtor, Map.live] at he
  apart := List.Pairwise.nil
  sorted := fun _ => ⟨rfl, List.Pairwise.nil⟩
  someLive := Or.inl rfl
  capacity := by decide

variable {m : Map}

theorem Map.Wf.separate (wf : m.Wf) : entryCover.Separate m.live :=
  List.Pairwise.imp_of_mem
    (fun he hf apart => (Entry.apart_iff (wf.positive _ he) (wf.positive _ hf)).mp apart) wf.apart

/-! ## Purging -/

theorem filter_rdropWhile (p : Entry → Bool) (l : List Entry) :
    (l.rdropWhile p).filter (fun e => !p e) = l.filter fun e => !p e := by
  induction l using List.reverseRecOn with
  | nil => rfl
  | append_singleton l e ih =>
    rw [List.rdropWhile_concat]
    split
    · next removed => simp [ih, removed]
    · rfl

theorem compactFrom_perm : ∀ (fuel : Nat) (l : List Entry), l.length ≤ fuel →
    (∀ z, l.getLast? = some z → z.removed = false) →
    (compactFrom fuel l).Perm (l.filter fun e => !e.removed)
  | _, [], _, _ => by
    rename_i fuel _ _
    cases fuel <;> exact List.Perm.refl _
  | 0, e :: rest, enough, _ => absurd enough (by simp)
  | fuel + 1, e :: rest, enough, last => by
    rw [compactFrom]
    simp only [List.length_cons, Nat.add_le_add_iff_right] at enough
    split
    · next live =>
      have ih := compactFrom_perm fuel rest enough fun z hz => last z (by
        rw [List.getLast?_cons, hz, Option.getD_some])
      simpa [live] using ih.cons e
    · next removed =>
      have removed : e.removed = true := by simpa using removed
      split
      · next none =>
        have nil : rest = [] := List.getLast?_eq_none_iff.mp none
        subst nil
        have := last e rfl
        rw [removed] at this
        cases this
      · next z some =>
        obtain ⟨init, rfl⟩ := List.getLast?_eq_some_iff.mp some
        have live : z.removed = false := last z (by rw [List.getLast?_cons, some]; rfl)
        rw [List.dropLast_concat]
        have shorter : (init.rdropWhile Entry.removed).length ≤ fuel := by
          have := (List.rdropWhile_prefix Entry.removed (l := init)).length_le
          simp only [List.length_append, List.length_cons, List.length_nil] at enough
          omega
        have ih := compactFrom_perm fuel (init.rdropWhile Entry.removed) shorter (by
          intro y hy
          have ne : init.rdropWhile Entry.removed ≠ [] := by
            intro nil
            rw [nil] at hy
            cases hy
          have := List.rdropWhile_last_not Entry.removed init ne
          rw [List.getLast?_eq_getLast_of_ne_nil ne, Option.some.injEq] at hy
          rw [← hy]
          simpa using this)
        rw [filter_rdropWhile] at ih
        have moved : (z :: init.filter fun e => !e.removed).Perm
            ((e :: (init ++ [z])).filter fun e => !e.removed) := by
          rw [List.filter_cons_of_neg (by simp [removed]), List.filter_append,
            List.filter_cons_of_pos (by simp [live]), List.filter_nil]
          exact (List.perm_append_singleton _ _).symm
        exact (ih.cons z).trans moved

/-- Purging a map with a live entry keeps exactly the live entries. -/
theorem naClVmmapRemoveMarked_spec (some_live : m.live ≠ []) :
    ∃ m', naClVmmapRemoveMarked m = some m' ∧ m'.vmentry.Perm m.live ∧ m'.size = m.size ∧
      m'.isSorted = false := by
  have nonempty : m.nvalid ≠ 0 := by
    intro zero
    have nil : m.vmentry = [] := List.length_eq_zero_iff.mp zero
    exact some_live (by rw [Map.live, nil, List.filter_nil])
  have kept : m.vmentry.rdropWhile Entry.removed ≠ [] := by
    intro nil
    have := filter_rdropWhile Entry.removed m.vmentry
    rw [nil, List.filter_nil] at this
    exact some_live this.symm
  refine ⟨{ m with
    vmentry := compactFrom (m.vmentry.rdropWhile Entry.removed).length
      (m.vmentry.rdropWhile Entry.removed)
    isSorted := false }, by rw [naClVmmapRemoveMarked, if_neg nonempty, if_neg kept], ?_, rfl, rfl⟩
  have perm := compactFrom_perm _ (m.vmentry.rdropWhile Entry.removed) (le_refl _) (by
    intro z hz
    have := List.rdropWhile_last_not Entry.removed m.vmentry kept
    rw [List.getLast?_eq_getLast_of_ne_nil kept, Option.some.injEq] at hz
    rw [← hz]
    simpa using this)
  rwa [filter_rdropWhile] at perm

/-! ## Sorting -/

/-- On page numbers below 2^31 the comparator does not lose the sign of the difference. -/
theorem naClVmmapCmpEntries_compares :
    Compares naClVmmapCmpEntries Entry.pageNum fun e => e.pageNum ≤ maxPage where
  neg := by
    intro x y hx hy
    simp only [naClVmmapCmpEntries, maxPage] at *
    rw [Int.bmod_eq_of_le (by omega) (by omega)]
    omega
  pos := by
    intro x y hx hy
    simp only [naClVmmapCmpEntries, maxPage] at *
    rw [Int.bmod_eq_of_le (by omega) (by omega)]
    omega

variable {l : List Entry}

theorem ascending_of_sorted (positive : ∀ e ∈ l, 0 < e.npages) (apart : l.Pairwise Entry.Apart)
    (sorted : l.Pairwise fun e f => e.pageNum ≤ f.pageNum) : Ascending l := by
  refine (apart.and sorted).imp_of_mem fun {e f} he hf h => ?_
  have := positive f hf
  rcases h.1 with before | behind
  · exact before
  · have := h.2
    simp only [Entry.endPage] at *
    omega

variable {e : Entry}

theorem Entry.Apart.symm {f : Entry} (h : e.Apart f) : f.Apart e := Or.symm h

/-- Sorting keeps the live entries and puts them in ascending order. -/
theorem naClVmmapMakeSorted_spec (wf : m.Wf) :
    ∃ m', naClVmmapMakeSorted m = some m' ∧ m'.vmentry.Perm m.live ∧ Ascending m'.vmentry ∧
      m'.size = m.size ∧ m'.isSorted = true := by
  unfold naClVmmapMakeSorted
  by_cases already : m.isSorted = true
  · obtain ⟨live, ascending⟩ := wf.sorted already
    exact ⟨m, by rw [if_pos already], by rw [live], ascending, rfl, already⟩
  · rw [if_neg already]
    have purged : ∃ m₁, naClVmmapRemoveMarked m = some m₁ ∧ m₁.vmentry.Perm m.live ∧
        m₁.size = m.size := by
      rcases wf.someLive with empty | some_live
      · refine ⟨m, by rw [naClVmmapRemoveMarked, Map.nvalid, empty]; rfl, ?_, rfl⟩
        rw [Map.live, empty, List.filter_nil]
      · obtain ⟨m₁, h₁, h₂, h₃, _⟩ := naClVmmapRemoveMarked_spec some_live
        exact ⟨m₁, h₁, h₂, h₃⟩
    obtain ⟨m₁, run, perm, size⟩ := purged
    have bounded : ∀ e ∈ m₁.vmentry, e.pageNum ≤ maxPage := fun e he =>
      le_trans (Nat.le_add_right _ _) (wf.bounded e (perm.mem_iff.mp he))
    have sorted := qsort_sorted naClVmmapCmpEntries_compares bounded
    have perm' := (qsort_perm naClVmmapCmpEntries_compares bounded).trans perm
    refine ⟨{ m₁ with vmentry := qsort naClVmmapCmpEntries m₁.vmentry, isSorted := true },
      by rw [run]; rfl, perm', ?_, size, rfl⟩
    exact ascending_of_sorted (fun e he => wf.positive e (perm'.mem_iff.mp he))
      ((perm'.pairwise_iff Entry.Apart.symm).mpr wf.apart) sorted

/-! ## Cutting a range out of the entries -/

/-- The live entries an iteration leaves behind: those of the array and the added one. -/
def liveOf (r : List Entry × Option Entry) : List Entry :=
  (r.1 ++ r.2.toList).filter fun e => !e.removed

variable {lo hi : Nat}

theorem cut_of_behind (positive : 0 < e.npages) (lt : lo < hi) (behind : hi ≤ e.pageNum) :
    e.cut lo hi = [e] := by
  have h₁ : ¬ e.pageNum < lo := by omega
  have h₂ : hi < e.endPage := by simp only [Entry.endPage]; omega
  have h₃ : max hi e.pageNum = e.pageNum := by omega
  have h₄ : e.endPage - e.pageNum = e.npages := by simp only [Entry.endPage]; omega
  rw [Entry.cut, if_neg h₁, if_pos h₂, h₃, h₄, pageDistance_self]
  simp

theorem cut_of_before (positive : 0 < e.npages) (lt : lo < hi) (before : e.endPage ≤ lo) :
    e.cut lo hi = [e] := by
  have h₁ : e.pageNum < lo := by simp only [Entry.endPage] at before; omega
  have h₂ : ¬ hi < e.endPage := by omega
  have h₃ : min lo e.endPage - e.pageNum = e.npages := by
    simp only [Entry.endPage] at before ⊢
    omega
  rw [Entry.cut, if_pos h₁, if_neg h₂, h₃]
  rfl

/-- Entries behind the range are not touched by cutting it out. -/
theorem flatMap_cut_behind (lt : lo < hi) : ∀ {l : List Entry},
    (∀ e ∈ l, 0 < e.npages) → (∀ e ∈ l, hi ≤ e.pageNum) → l.flatMap (Entry.cut lo hi) = l
  | [], _, _ => rfl
  | e :: l, positive, behind => by
    rw [List.flatMap_cons, cut_of_behind (positive e List.mem_cons_self) lt
      (behind e List.mem_cons_self), flatMap_cut_behind lt
      (fun f hf => positive f (List.mem_cons_of_mem e hf))
      (fun f hf => behind f (List.mem_cons_of_mem e hf))]
    rfl

theorem liveOf_all (live : ∀ e ∈ l, e.removed = false) : l.filter (fun e => !e.removed) = l :=
  List.filter_eq_self.mpr fun e he => by simp [live e he]

/-- On an ascending array without removed entries, the loop of `NaClVmmapUpdate` cuts
    the range out of every entry. -/
theorem updateLoop_perm (lt : lo < hi) : ∀ {l : List Entry}, Ascending l →
    (∀ e ∈ l, 0 < e.npages) → (∀ e ∈ l, e.removed = false) →
    (liveOf (updateLoop lo hi l)).Perm (l.flatMap (Entry.cut lo hi))
  | [], _, _, _ => List.Perm.refl _
  | e :: rest, ascending, positive, live => by
    obtain ⟨ahead, ascending⟩ := List.pairwise_cons.mp ascending
    have pos := positive e List.mem_cons_self
    have liv := live e List.mem_cons_self
    have positive := fun f hf => positive f (List.mem_cons_of_mem e hf)
    have live := fun f hf => live f (List.mem_cons_of_mem e hf)
    have ih := updateLoop_perm lt ascending positive live
    have endPage : e.endPage = e.pageNum + e.npages := rfl
    rw [List.flatMap_cons, updateLoop]
    split
    · -- split: every later entry lies behind the range
      next split =>
      rw [flatMap_cut_behind lt positive fun f hf => le_trans (le_of_lt split.2) (ahead f hf)]
      have cut : e.cut lo hi =
          [{ e with npages := lo - e.pageNum },
            { e with
              pageNum := hi, npages := e.endPage - hi
              offset := e.offset + pageDistance e.pageNum hi }] := by
        rw [Entry.cut, if_pos split.1, if_pos split.2, show min lo e.endPage = lo by omega,
          show max hi e.pageNum = hi by omega]
        rfl
      rw [cut, liveOf, liveOf_all]
      · simp only [naClVmmapEntryMake, additionalOffset, pageDistance, liv, Option.toList_some,
          List.cons_append, List.nil_append]
        exact (List.perm_append_singleton _ _).cons _
      · intro f hf
        simp only [Option.toList_some, List.cons_append, List.mem_cons, List.mem_append,
          List.not_mem_nil, or_false] at hf
        rcases hf with rfl | hf | rfl
        · exact liv
        · exact live f hf
        · rfl
    · next notSplit =>
      split
      · -- the range overlaps the end of the entry
        next overlap =>
        have cut : e.cut lo hi = [{ e with npages := lo - e.pageNum }] := by
          rw [Entry.cut, if_pos overlap.1, if_neg (by omega),
            show min lo e.endPage = lo by omega]
          rfl
        rw [cut]
        simpa only [liveOf, List.cons_append, List.filter_cons_of_pos, liv, Bool.not_false,
          List.nil_append] using ih.cons { e with npages := lo - e.pageNum }
      · next notEnd =>
        split
        · -- the range overlaps the start of the entry: every later entry lies behind it
          next overlap =>
          rw [flatMap_cut_behind lt positive
            fun f hf => le_trans (le_of_lt overlap.2) (ahead f hf)]
          have cut : e.cut lo hi =
              [{ e with
                pageNum := hi, npages := e.endPage - hi
                offset := e.offset + pageDistance e.pageNum hi }] := by
            rw [Entry.cut, if_neg (by omega), if_pos overlap.2,
              show max hi e.pageNum = hi by omega]
            rfl
          rw [cut, liveOf, liveOf_all]
          · simp only [additionalOffset, pageDistance, Option.toList_none, List.append_nil,
              List.cons_append, List.nil_append]
            exact List.Perm.refl _
          · intro f hf
            simp only [Option.toList_none, List.append_nil, List.mem_cons] at hf
            rcases hf with rfl | hf
            · exact liv
            · exact live f hf
        · next notStart =>
          split
          · -- the range covers the entry
            next covered =>
            have cut : e.cut lo hi = [] := by
              rw [Entry.cut, if_neg (by omega), if_neg (by omega)]
              rfl
            rw [cut]
            simpa only [liveOf, List.cons_append, List.filter_cons_of_neg, Bool.not_true,
              List.nil_append, Bool.false_eq_true, not_false_eq_true] using ih
          · -- no overlap
            next notCovered =>
            have cut : e.cut lo hi = [e] := by
              rcases Nat.lt_or_ge lo e.endPage with h | h
              · exact cut_of_behind pos lt (by omega)
              · exact cut_of_before pos lt h
            rw [cut]
            simpa only [liveOf, List.cons_append, List.filter_cons_of_pos, liv, Bool.not_false,
              List.nil_append] using ih.cons e

theorem updateLoop_length (lo hi : Nat) : ∀ l : List Entry,
    (updateLoop lo hi l).1.length = l.length
  | [] => rfl
  | e :: rest => by
    have ih := updateLoop_length lo hi rest
    rw [updateLoop]
    split_ifs <;> simp [ih]

/-! ## The pieces of a cut -/

theorem mem_cut {t : Entry} : t ∈ e.cut lo hi ↔
    (e.pageNum < lo ∧ t = { e with npages := min lo e.endPage - e.pageNum }) ∨
    (hi < e.endPage ∧ t = { e with
      pageNum := max hi e.pageNum
      npages := e.endPage - max hi e.pageNum
      offset := e.offset + pageDistance e.pageNum (max hi e.pageNum) }) := by
  rw [Entry.cut, List.mem_append]
  split_ifs with h₁ h₂ h₂ <;> simp [h₁, h₂]

section CutPieces

variable {lo hi : Nat} {e t : Entry}

theorem cut_positive (pos : 0 < e.npages) (ht : t ∈ e.cut lo hi) : 0 < t.npages := by
  have : e.endPage = e.pageNum + e.npages := rfl
  rcases mem_cut.mp ht with ⟨h, rfl⟩ | ⟨h, rfl⟩
  · simp only
    omega
  · simp only
    omega

theorem cut_endPage_le (pos : 0 < e.npages) (ht : t ∈ e.cut lo hi) : t.endPage ≤ e.endPage := by
  rcases mem_cut.mp ht with ⟨h, rfl⟩ | ⟨h, rfl⟩
  · simp only [Entry.endPage]
    omega
  · simp only [Entry.endPage] at *
    omega

theorem cut_removed (ht : t ∈ e.cut lo hi) : t.removed = e.removed := by
  rcases mem_cut.mp ht with ⟨_, rfl⟩ | ⟨_, rfl⟩ <;> rfl

/-- The pieces cover exactly the pages outside the range, with unchanged attributes. -/
theorem cut_pieces (pos : 0 < e.npages) (p : Nat) (v : PageAttr) :
    (∃ t ∈ e.cut lo hi, entryCover.covers t p = true ∧ entryCover.value t p = v) ↔
      entryCover.covers e p = true ∧
        (if lo ≤ p ∧ p < hi then none else some (entryCover.value e p)) = some v := by
  have end_eq : e.endPage = e.pageNum + e.npages := rfl
  simp only [entryCover_covers, entryCover_value, Entry.covers_iff]
  constructor
  · rintro ⟨t, ht, covers, rfl⟩
    rcases mem_cut.mp ht with ⟨h, rfl⟩ | ⟨h, rfl⟩
    · simp only [Entry.endPage] at covers
      refine ⟨by omega, ?_⟩
      rw [if_neg (by omega)]
      rfl
    · simp only [Entry.endPage] at covers
      refine ⟨by omega, ?_⟩
      rw [if_neg (by omega), Entry.attr_tail]
  · rintro ⟨covers, kept⟩
    by_cases inside : lo ≤ p ∧ p < hi
    · rw [if_pos inside] at kept
      cases kept
    · rw [if_neg inside] at kept
      cases kept
      rcases Nat.lt_or_ge p lo with before | behind
      · refine ⟨{ e with npages := min lo e.endPage - e.pageNum },
          mem_cut.mpr (Or.inl ⟨by omega, rfl⟩), ?_, rfl⟩
        simp only [Entry.endPage] at covers ⊢
        omega
      · refine ⟨_, mem_cut.mpr (Or.inr ⟨by omega, rfl⟩), ?_, Entry.attr_tail e _ _ p⟩
        simp only [Entry.endPage] at covers ⊢
        omega

theorem cut_separate (lt : lo < hi) : entryCover.Separate (e.cut lo hi) := by
  rw [Entry.cut]
  refine List.pairwise_append.mpr ⟨?_, ?_, ?_⟩
  · split
    · exact List.pairwise_singleton _ _
    · exact List.Pairwise.nil
  · split
    · exact List.pairwise_singleton _ _
    · exact List.Pairwise.nil
  · intro t ht t' ht' p both
    simp only [List.mem_ite_nil_right, List.mem_singleton] at ht ht'
    obtain ⟨_, rfl⟩ := ht
    obtain ⟨_, rfl⟩ := ht'
    simp only [entryCover_covers, Entry.covers_iff, Entry.endPage] at both
    omega

end CutPieces

/-- Cutting a range out of separate entries erases it from the page map. -/
theorem denote_flatMap_cut (lt : lo < hi) (positive : ∀ e ∈ l, 0 < e.npages)
    (sep : entryCover.Separate l) : entryCover.Separate (l.flatMap (Entry.cut lo hi)) ∧
      entryCover.denote (l.flatMap (Entry.cut lo hi)) =
        PageMap.erase (entryCover.denote l) lo hi := by
  have sep' : entryCover.Separate (l.flatMap (Entry.cut lo hi)) := by
    refine sep.flatMap (fun _ _ => cut_separate lt) ?_
    intro e he t ht p covers
    exact ((cut_pieces (positive e he) p _).mp ⟨t, ht, covers, rfl⟩).1
  refine ⟨sep', funext fun p => ?_⟩
  rw [Cover.denote_flatMap (g := fun p v => if lo ≤ p ∧ p < hi then none else some v) sep sep'
    (fun e he p v => cut_pieces (positive e he) p v) p]
  unfold PageMap.erase
  by_cases inside : lo ≤ p ∧ p < hi
  · cases entryCover.denote l p <;> simp [inside]
  · cases entryCover.denote l p <;> simp [inside]

/-! ## The update -/

theorem append_capacity (cap : m.nvalid ≤ m.size ∧ 0 < m.size) (e : Entry) :
    (m.append e).nvalid ≤ (m.append e).size ∧ 0 < (m.append e).size := by
  have grown : (m.append e).nvalid = m.nvalid + 1 := by simp [Map.append, Map.nvalid]
  rw [grown, Map.append]
  simp only
  split <;> omega

theorem append_live (m : Map) (live : e.removed = false) : (m.append e).live = m.live ++ [e] := by
  simp [Map.append, Map.live, live]

/-- A purged array of separate entries is a well-formed map. -/
theorem wf_of_purged {m' : Map} (cap : m.nvalid ≤ m.size ∧ 0 < m.size)
    (perm : m'.vmentry.Perm m.live) (size : m'.size = m.size) (unsorted : m'.isSorted = false)
    (positive : ∀ e ∈ m.live, 0 < e.npages) (bounded : ∀ e ∈ m.live, e.endPage ≤ maxPage)
    (sep : entryCover.Separate m.live) : m'.Wf ∧ m'.denote = entryCover.denote m.live := by
  have live : m'.live = m'.vmentry := liveOf_all fun e he => by
    have := (List.mem_filter.mp (perm.mem_iff.mp he)).2
    simpa using this
  have apart : m.live.Pairwise Entry.Apart := List.Pairwise.imp_of_mem
    (fun he hf h => (Entry.apart_iff (positive _ he) (positive _ hf)).mpr h) sep
  refine ⟨⟨?_, ?_, ?_, ?_, ?_, ?_⟩, ?_⟩
  · intro e he
    rw [live] at he
    exact positive e (perm.mem_iff.mp he)
  · intro e he
    rw [live] at he
    exact bounded e (perm.mem_iff.mp he)
  · rw [live]
    exact (perm.pairwise_iff Entry.Apart.symm).mpr apart
  · intro sorted
    rw [unsorted] at sorted
    cases sorted
  · rw [live]
    exact (em _).imp id id
  · have fewer : m.live.length ≤ m.vmentry.length := List.length_filter_le _ _
    simp only [Map.nvalid] at *
    rw [perm.length_eq, size]
    omega
  · rw [Map.denote, live]
    exact (Cover.denote_perm sep perm.symm).symm

/-- `NaClVmmapUpdate` cuts the range out of the page map and, unless it removes, gives
    the range its new attributes.  It aborts on no map that keeps a live entry. -/
theorem naClVmmapUpdate_spec (wf : m.Wf) {pageNum npages : Nat} (pos : 0 < npages)
    (inSpace : pageNum + npages ≤ maxPage) (prot flags : BitVec 32) (remove : Bool)
    (desc : Option DescId) (offset fileSize : BitVec 64)
    (stays : remove = true → ∃ p, m.denote.erase pageNum (pageNum + npages) p ≠ none) :
    ∃ m', naClVmmapUpdate m pageNum npages prot flags remove desc offset fileSize = some m' ∧
      m'.Wf ∧ m'.denote = if remove then m.denote.erase pageNum (pageNum + npages)
        else m.denote.overwrite pageNum (pageNum + npages)
          (naClVmmapEntryMake pageNum npages prot flags desc offset fileSize).attr := by
  obtain ⟨m₁, sorted, perm₁, ascending, size₁, _⟩ := naClVmmapMakeSorted_spec wf
  have positive₁ : ∀ e ∈ m₁.vmentry, 0 < e.npages := fun e he =>
    wf.positive e (perm₁.mem_iff.mp he)
  have live₁ : ∀ e ∈ m₁.vmentry, e.removed = false := fun e he => by
    have := (List.mem_filter.mp (perm₁.mem_iff.mp he)).2
    simpa using this
  have lt : pageNum < pageNum + npages := by omega
  have sep₁ : entryCover.Separate m₁.vmentry := Cover.Separate.perm wf.separate perm₁.symm
  obtain ⟨sepCut, denoteCut⟩ := denote_flatMap_cut lt positive₁ sep₁
  rw [← Cover.denote_perm wf.separate perm₁.symm] at denoteCut
  change entryCover.denote _ = m.denote.erase _ _ at denoteCut
  have cutPerm := updateLoop_perm lt ascending positive₁ live₁
  have cap₁ : (updateLoop pageNum (pageNum + npages) m₁.vmentry).1.length ≤ m₁.size ∧
      0 < m₁.size := by
    have fewer : m.live.length ≤ m.vmentry.length := List.length_filter_le _ _
    have cap := wf.capacity
    simp only [Map.nvalid] at cap
    rw [updateLoop_length, size₁, perm₁.length_eq]
    omega
  unfold naClVmmapUpdate
  rw [sorted]
  simp only [Option.bind_eq_bind, Option.bind_some, if_pos pos]
  generalize hloop : updateLoop pageNum (pageNum + npages) m₁.vmentry = r at cutPerm cap₁
  obtain ⟨entries, added⟩ := r
  simp only
  -- the map after the loop, with the entry a split has added
  generalize hm₂ : added.elim { m₁ with vmentry := entries }
    { m₁ with vmentry := entries }.append = m₂
  have entries₂ : m₂.live = liveOf (entries, added) ∧ m₂.nvalid ≤ m₂.size ∧ 0 < m₂.size := by
    cases added with
    | none =>
      subst hm₂
      exact ⟨by simp [Map.live, liveOf], cap₁⟩
    | some e =>
      subst hm₂
      exact ⟨by simp [Map.live, liveOf, Map.append],
        append_capacity (m := { m₁ with vmentry := entries }) cap₁ e⟩
  obtain ⟨live₂, cap₂⟩ := entries₂
  have perm₂ : m₂.live.Perm (m₁.vmentry.flatMap (Entry.cut pageNum (pageNum + npages))) := by
    rw [live₂]
    exact cutPerm
  have piece : ∀ t ∈ m₂.live, 0 < t.npages ∧ t.endPage ≤ maxPage := fun t ht => by
    obtain ⟨e, he, hte⟩ := List.mem_flatMap.mp (perm₂.mem_iff.mp ht)
    exact ⟨cut_positive (positive₁ e he) hte,
      le_trans (cut_endPage_le (positive₁ e he) hte) (wf.bounded e (perm₁.mem_iff.mp he))⟩
  have sep₂ : entryCover.Separate m₂.live := sepCut.perm perm₂.symm
  have denote₂ : entryCover.denote m₂.live = m.denote.erase pageNum (pageNum + npages) := by
    rw [← denoteCut]
    exact Cover.denote_perm sep₂ perm₂
  cases remove with
  | true =>
    have some_live : m₂.live ≠ [] := by
      intro nil
      obtain ⟨p, mapped⟩ := stays rfl
      rw [← denote₂, nil] at mapped
      exact mapped rfl
    obtain ⟨m', run, perm', size', unsorted'⟩ := naClVmmapRemoveMarked_spec some_live
    obtain ⟨wf', denote'⟩ := wf_of_purged cap₂ perm' size' unsorted' (fun e he => (piece e he).1)
      (fun e he => (piece e he).2) sep₂
    exact ⟨m', run, wf', by rw [denote', denote₂]; rfl⟩
  | false =>
    generalize hnew : naClVmmapEntryMake pageNum npages prot flags desc offset fileSize = new
    have newRange : new.pageNum = pageNum ∧ new.npages = npages ∧ new.removed = false := by
      subst hnew
      exact ⟨rfl, rfl, rfl⟩
    simp only [naClVmmapAdd, hnew, Bool.false_eq_true, if_false]
    have cap₃ := append_capacity cap₂ new
    have live₃ := append_live m₂ newRange.2.2
    generalize m₂.append new = m₃ at cap₃ live₃
    have covers_new : ∀ p, entryCover.covers new p = true ↔
        pageNum ≤ p ∧ p < pageNum + npages := fun p => by
      rw [entryCover_covers, Entry.covers_iff, Entry.endPage, newRange.1, newRange.2.1]
    have perm₃ : m₃.live.Perm (new :: m₂.live) := by
      rw [live₃]
      exact List.perm_append_singleton _ _
    have sep₃ : entryCover.Separate (new :: m₂.live) := by
      refine List.pairwise_cons.mpr ⟨fun t ht p both => ?_, sep₂⟩
      have erased : entryCover.denote m₂.live p = none := by
        rw [denote₂, PageMap.erase, if_pos ((covers_new p).mp both.1)]
      exact Cover.denote_eq_none_iff.mp erased t ht both.2
    have pieces : ∀ t ∈ m₃.live, 0 < t.npages ∧ t.endPage ≤ maxPage := fun t ht => by
      rcases List.mem_cons.mp (perm₃.mem_iff.mp ht) with rfl | ht
      · rw [Entry.endPage, newRange.1, newRange.2.1]
        exact ⟨pos, inSpace⟩
      · exact piece t ht
    obtain ⟨m', run, perm', size', unsorted'⟩ := naClVmmapRemoveMarked_spec (m := m₃)
      (by rw [live₃]; simp)
    obtain ⟨wf', denote'⟩ := wf_of_purged cap₃ perm' size' unsorted'
      (fun e he => (pieces e he).1) (fun e he => (pieces e he).2) (sep₃.perm perm₃.symm)
    refine ⟨m', run, wf', ?_⟩
    rw [denote', ← Cover.denote_perm sep₃ perm₃.symm]
    funext p
    rw [Cover.denote_cons, denote₂, PageMap.overwrite]
    by_cases inside : pageNum ≤ p ∧ p < pageNum + npages
    · rw [if_pos ((covers_new p).mpr inside), if_pos inside]
      rfl
    · rw [if_neg (fun h => inside ((covers_new p).mp h)), if_neg inside,
        PageMap.erase_outside _ inside]

end SandboxTEE.Vmmap
