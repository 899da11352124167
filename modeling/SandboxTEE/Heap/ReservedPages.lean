import Mathlib.Algebra.BigOperators.Ring.List
import Mathlib.Algebra.Ring.Nat
import Mathlib.Data.List.TakeWhile
import SandboxTEE.Heap.PageLists
import SandboxTEE.Lib.Run

/-! # What `get_reserved_pages` hands out and `free_pages` takes back -/

namespace SandboxTEE.Heap

open SandboxTEE.Lib
open SandboxTEE.Lib.HalfOpen

variable {h : Pages} {s s' : PageState} {addr size availTop : Nat} {above below : List HeapVma}

/-- The start of a page of the heap, or its end. -/
def Pages.Boundary (h : Pages) (p : Nat) : Prop := pgsz ∣ p ∧ h.base ≤ p ∧ p ≤ h.base + h.size

/-- In descending order with gaps, of whole pages and inside the heap. -/
structure Ordered (h : Pages) (list : List HeapVma) : Prop where
  falling : Falling list
  ends : Ends h.Boundary list

theorem ordered_nil : Ordered h [] := ⟨falling_nil, by simp [Ends]⟩

variable {list : List HeapVma}

theorem Ordered.cover_subset (ordered : Ordered h list) :
    cover list ⊆ Finset.Ico h.base (h.base + h.size) := by
  intro a covered
  obtain ⟨v, member, low, high⟩ := mem_cover.mp covered
  obtain ⟨bottom, top⟩ := ordered.ends v member
  exact Finset.mem_Ico.mpr ⟨bottom.2.1.trans low, high.trans_le top.2.2⟩

/-! ## Rounding -/

theorem roundDown_dvd : pgsz ∣ roundDown addr := by
  unfold roundDown
  split
  · exact Nat.dvd_mul_left ..
  · next whole => exact Nat.dvd_of_mod_eq_zero (not_not.mp whole)

theorem roundDown_le : roundDown addr ≤ addr := by
  unfold roundDown
  split
  · exact Nat.div_mul_le_self ..
  · exact Nat.le_refl _

theorem roundDown_of_dvd (whole : pgsz ∣ addr) : roundDown addr = addr :=
  if_neg (not_not.mpr (Nat.mod_eq_zero_of_dvd whole))

theorem roundUp_spec (small : size + (pgsz - 1) < 2 ^ 63) :
    pgsz ∣ roundUp size ∧ size ≤ roundUp size ∧ roundUp size < 2 ^ 63 := by
  unfold roundUp
  split
  · next part =>
    rw [add64, Nat.mod_eq_of_lt (by omega)]
    refine ⟨Nat.dvd_mul_left .., ?_⟩
    simp only [pgsz] at small part ⊢
    omega
  · next whole => exact ⟨Nat.dvd_of_mod_eq_zero (not_not.mp whole), Nat.le_refl _, by omega⟩

/-! ## The search -/

/-- A gap of whole pages and the entries on both sides of it. -/
structure Gap (h : Pages) (size addr : Nat) (list above below : List HeapVma) : Prop where
  split : above.reverse ++ below = list
  start : h.Boundary addr
  stop : h.Boundary (addr + size)
  high : ∀ v ∈ above, addr + size ≤ v.bottom
  low : ∀ v ∈ below, v.top < addr

theorem Pages.Boundary.sub (top : h.Boundary availTop) (whole : pgsz ∣ size)
    (fits : h.base + size ≤ availTop) : sub64 availTop size = availTop - size ∧
      h.Boundary (availTop - size) ∧ availTop - size + size = availTop := by
  obtain ⟨page, from_base, to_end⟩ := top
  have bound := h.small
  have positive := h.positive
  refine ⟨?_, ⟨Nat.dvd_sub page whole, by omega, by omega⟩, by omega⟩
  unfold sub64
  omega

theorem searchGap_spec {above' below' : List HeapVma} (whole : pgsz ∣ size) (small : size < 2 ^ 63)
    (falling : Falling below) (ends : Ends h.Boundary below) (top : h.Boundary availTop)
    (high : ∀ v ∈ above, availTop ≤ v.bottom) (low : ∀ v ∈ below, v.top ≤ availTop)
    (found : searchGap h.base size availTop above below = some (addr, above', below')) :
    Gap h size addr (above.reverse ++ below) above' below' := by
  have bound := h.small
  have positive := h.positive
  induction below generalizing availTop above with
  | nil =>
    simp only [searchGap] at found
    split at found
    · next fits =>
      rw [add64, Nat.mod_eq_of_lt (by have := top.2; omega)] at fits
      obtain ⟨start, boundary, stop⟩ := top.sub whole fits
      cases found
      rw [start]
      exact ⟨rfl, boundary, by rwa [stop], by rwa [stop], by simp⟩
    · cases found
  | cons vma below ih =>
    obtain ⟨proper, lower, falling'⟩ := falling_cons.mp falling
    obtain ⟨⟨bottom, upper⟩, ends'⟩ := ends_cons.mp ends
    have under := low vma List.mem_cons_self
    have highest := top.2.2
    have lowest := upper.2.1
    simp only [searchGap] at found
    split at found
    · next room =>
      have between : sub64 availTop vma.top = availTop - vma.top := by
        unfold sub64
        omega
      rw [between, signed64, signed64, if_pos small, if_pos (by omega)] at room
      have fits : vma.top + size < availTop := by omega
      obtain ⟨start, boundary, stop⟩ := top.sub whole (by omega)
      cases found
      rw [start]
      refine ⟨rfl, boundary, by rwa [stop], by rwa [stop], List.forall_mem_cons.mpr ⟨by omega, ?_⟩⟩
      intro v member
      have := lower v member
      omega
    · have gap := @ih _ (vma :: above) falling' ends' bottom
        (List.forall_mem_cons.mpr ⟨Nat.le_refl _, fun v member => ?_⟩)
        (fun v member => (lower v member).le) found
      · rwa [List.reverse_cons, List.append_assoc] at gap
      · have := high v member
        omega

/-! ## The calls -/

/-- A range of whole pages at `r`, put into the list: what was asked for, or a free one. -/
structure Granted (h : Pages) (s : PageState) (addr size r : Nat) (s' : PageState) : Prop where
  start : h.Boundary r
  stop : h.Boundary (r + roundUp size)
  placed : roundDown addr ≠ 0 → r = roundDown addr
  free : roundDown addr = 0 → Disjoint (Finset.Ico r (r + roundUp size)) (cover s.heapVmaList)
  ordered : Ordered h s'.heapVmaList
  covers : cover s'.heapVmaList = cover s.heapVmaList ∪ Finset.Ico r (r + roundUp size)
  pages : s'.allocedPages = (s.allocedPages + roundUp size / pgsz).bmod (2 ^ 64)

variable {r : Nat}

theorem granted (ordered : Ordered h s.heapVmaList) (split : above.reverse ++ below = s.heapVmaList)
    (nonempty : 0 < roundUp size) (start : h.Boundary r) (stop : h.Boundary (r + roundUp size))
    (high : ∀ v ∈ above, r ≤ v.bottom) (low : ∀ v ∈ below, v.bottom < r)
    (placed : roundDown addr ≠ 0 → r = roundDown addr)
    (free : roundDown addr = 0 → Disjoint (Finset.Ico r (r + roundUp size)) (cover s.heapVmaList)) :
    Granted h s addr size r (allocate s r (roundUp size) above below) := by
  have bound := h.small
  have highest := stop.2.2
  rw [← split] at ordered
  obtain ⟨falling, ends, covers⟩ := allocate_list s (by omega) nonempty ordered.falling high low
    ordered.ends ⟨start, stop⟩
  rw [split] at covers
  exact ⟨start, stop, placed, free, ⟨falling, ends⟩, covers, rfl⟩

theorem Gap.disjoint (gap : Gap h size addr list above below) :
    Disjoint (Finset.Ico addr (addr + size)) (cover list) := by
  rw [Finset.disjoint_left]
  intro a inside covered
  obtain ⟨from_addr, to_end⟩ := Finset.mem_Ico.mp inside
  obtain ⟨v, member, bottom, top⟩ := mem_cover.mp covered
  rw [← gap.split] at member
  rcases List.mem_append.mp member with member | member
  · have := gap.high v (List.mem_reverse.mp member)
    omega
  · have := gap.low v member
    omega

/-- The entries from the first one below an address on all lie below it. -/
theorem dropWhile_low (falling : Falling list) :
    ∀ v ∈ list.dropWhile fun vma => ¬ vma.bottom < addr, v.bottom < addr := by
  induction list with
  | nil => simp
  | cons vma list ih =>
    obtain ⟨proper, lower, falling'⟩ := falling_cons.mp falling
    by_cases first : vma.bottom < addr
    · rw [List.dropWhile_cons_of_neg (by simpa using first)]
      refine List.forall_mem_cons.mpr ⟨first, fun v member => ?_⟩
      have := lower v member
      have := falling'.proper v member
      omega
    · rw [List.dropWhile_cons_of_pos (by simpa using first)]
      exact ih falling'

theorem getReservedPages_spec (ordered : Ordered h s.heapVmaList)
    (small : size + (pgsz - 1) < 2 ^ 63) (result : getReservedPages h s addr size = (r, s')) :
    (r = 0 ∧ s' = s) ∨ (r ≠ 0 ∧ Granted h s addr size r s') := by
  have bound := h.small
  have positive := h.positive
  have heapTop : add64 h.base h.size = h.base + h.size := Nat.mod_eq_of_lt (by omega)
  obtain ⟨whole, covers, small'⟩ := roundUp_spec small
  simp only [getReservedPages, heapTop] at result
  split at result
  · cases result
    exact .inl ⟨rfl, rfl⟩
  next nonempty =>
  have nonempty' : 0 < roundUp size := by omega
  split at result
  · cases result
    exact .inl ⟨rfl, rfl⟩
  next inside =>
  have below_top : roundDown addr < h.base + h.size := roundDown_le.trans_lt (Nat.not_le.mp inside)
  split at result
  · next explicit =>
    obtain ⟨asked, from_base, to_end⟩ := explicit
    rw [add64, Nat.mod_eq_of_lt (by omega)] at to_end
    cases result
    have start : h.Boundary (roundDown addr) := ⟨roundDown_dvd, from_base, below_top.le⟩
    have stop : h.Boundary (roundDown addr + roundUp size) :=
      ⟨Nat.dvd_add roundDown_dvd whole, by omega, to_end⟩
    refine .inr ⟨asked, granted ordered ?_ nonempty' start stop ?_ (dropWhile_low ordered.falling)
      (fun _ => rfl) fun none => absurd none asked⟩
    · rw [List.reverse_reverse, List.takeWhile_append_dropWhile]
    · intro v member
      have high := List.mem_takeWhile_imp (List.mem_reverse.mp member)
      simpa using high
  · split at result
    · cases result
      exact .inl ⟨rfl, rfl⟩
    next asked =>
    split at result
    · cases result
      exact .inl ⟨rfl, rfl⟩
    · next a above below found =>
      cases result
      have gap := searchGap_spec whole small' ordered.falling ordered.ends
        ⟨Nat.dvd_add h.base_aligned h.size_aligned, by omega, Nat.le_refl _⟩ (by simp)
        (fun v member => (ordered.ends v member).2.2.2) found
      refine .inr ⟨?_, granted ordered gap.split nonempty' gap.start gap.stop ?_ ?_
        (fun some => absurd some asked) fun _ => gap.disjoint⟩
      · have := gap.start.2.1
        omega
      · intro v member
        have := gap.high v member
        omega
      · intro v member
        have := gap.low v member
        have member' : v ∈ above.reverse ++ below := List.mem_append_right _ member
        rw [gap.split] at member'
        have := ordered.falling.proper v member'
        omega

/-- A free that would cut the upper part off the only entry of the list. -/
def CutsOnlyEntry (list : List HeapVma) (addr size : Nat) : Prop :=
  ∃ v, list = [v] ∧ v.bottom < addr ∧ addr < v.top ∧ v.top = addr + size

theorem freePages_spec (ordered : Ordered h s.heapVmaList) (nonempty : 0 < size) (whole : pgsz ∣ addr)
    (whole' : pgsz ∣ size) (covered : Finset.Ico addr (addr + size) ⊆ cover s.heapVmaList)
    (safe : ¬CutsOnlyEntry s.heapVmaList addr size) :
    ∃ s', freePages h s addr size = some s' ∧ Ordered h s'.heapVmaList ∧
      cover s'.heapVmaList = cover s.heapVmaList \ Finset.Ico addr (addr + size) ∧
      s'.allocedPages = (s.allocedPages - size / pgsz).bmod (2 ^ 64) := by
  have bound := h.small
  have positive := h.positive
  have heapTop : add64 h.base h.size = h.base + h.size := Nat.mod_eq_of_lt (by omega)
  have range : addr < addr + size := Nat.lt_add_of_pos_right nonempty
  -- the range lies in one entry, and with it in the heap
  obtain ⟨v, member, low, high⟩ := covered_within ordered.falling range covered
  obtain ⟨bottom, top⟩ := ordered.ends v member
  have from_base := bottom.2.1.trans low
  have to_end := high.trans top.2.2
  have addrTop : add64 addr size = addr + size := Nat.mod_eq_of_lt (by omega)
  have page_end : pgsz ∣ addr + size := Nat.dvd_add whole whole'
  have left : (freeLoop addr (addr + size) true s.heapVmaList).isSome = true := by
    refine freeLoop_isSome ordered.falling range member ⟨low, high⟩ ?_
    rintro ⟨_, only, cut, stop⟩
    exact safe ⟨v, only, cut, by omega, stop⟩
  obtain ⟨list, left⟩ := Option.isSome_iff_exists.mp left
  have freed := freeLoop_spec (P := h.Boundary) ordered.falling range
    ⟨⟨whole, from_base, by omega⟩, page_end, by omega, to_end⟩ left
  have used : ¬(addr = 0 ∨ size = 0) := by omega
  have even : ¬(addr + size) % pgsz ≠ 0 := not_not.mpr (Nat.mod_eq_zero_of_dvd page_end)
  have not_above : ¬h.base + h.size ≤ addr := by omega
  have not_below : ¬addr + size ≤ h.base := by omega
  simp only [freePages, heapTop, addrTop, if_neg used, if_neg even, roundDown_of_dvd whole,
    if_neg not_above, if_neg not_below, if_neg (Nat.not_lt.mpr to_end), if_neg (Nat.not_lt.mpr from_base),
    left]
  exact ⟨_, rfl, ⟨freed.falling, freed.ends ordered.ends⟩, freed.covers, rfl⟩

/-! ## Runs -/

/-- A size that does not reach the sign bit, and a free of whole pages that are all allocated and not
    the upper part of the only entry. -/
def PageCall.Orderly (s : PageState) : PageCall → Prop
  | .get _ size => size + (pgsz - 1) < 2 ^ 63
  | .free addr size => pgsz ∣ addr ∧ pgsz ∣ size ∧
      Finset.Ico addr (addr + size) ⊆ cover s.heapVmaList ∧ ¬CutsOnlyEntry s.heapVmaList addr size

/-- A request for an address asks for free pages. -/
def PageCall.Fresh (s : PageState) : PageCall → Prop
  | .get addr size => roundDown addr ≠ 0 →
      Disjoint (Finset.Ico (roundDown addr) (roundDown addr + roundUp size)) (cover s.heapVmaList)
  | .free .. => True

def pagesOf (list : List HeapVma) : Nat := (list.map fun vma => vma.length / pgsz).sum

theorem Ordered.call {call : PageCall} (ordered : Ordered h s.heapVmaList) (orderly : call.Orderly s)
    (called : s.call h call = some s') : Ordered h s'.heapVmaList := by
  cases call with
  | get addr size =>
    cases called
    obtain ⟨_, same⟩ | ⟨_, granted⟩ := getReservedPages_spec ordered orderly Prod.mk.eta.symm
    · rwa [same]
    · exact granted.ordered
  | free addr size =>
    obtain ⟨whole, whole', covered, safe⟩ := orderly
    cases size with
    | zero =>
      simp only [PageState.call, freePages, or_true, if_true, Option.some.injEq] at called
      rwa [← called]
    | succ size =>
      obtain ⟨t, freed, ordered', _⟩ := freePages_spec ordered size.succ_pos whole whole' covered safe
      rw [PageState.call, freed] at called
      cases called
      exact ordered'

/-! ## The counter -/

theorem Ordered.pagesOf_mul (ordered : Ordered h list) :
    pagesOf list * pgsz = (cover list).card := by
  have whole : ∀ v ∈ list, v.length / pgsz * pgsz = v.length := fun v member => by
    obtain ⟨bottom, top⟩ := ordered.ends v member
    exact Nat.div_mul_cancel (Nat.dvd_sub top.1 bottom.1)
  rw [card_cover ordered.falling, pagesOf, ← List.sum_map_mul_right, List.map_congr_left whole]

theorem Ordered.pagesOf_small (ordered : Ordered h list) : pagesOf list * pgsz ≤ h.size := by
  rw [ordered.pagesOf_mul]
  have := Finset.card_le_card ordered.cover_subset
  rwa [Nat.card_Ico, Nat.add_sub_cancel_left] at this

/-- What covers that much more or less in whole pages has as many pages more or less. -/
theorem counted_of_card {list' : List HeapVma} (ordered : Ordered h list)
    (ordered' : Ordered h list') (whole : pgsz ∣ size)
    (more : (cover list').card = (cover list).card + size) :
    pagesOf list' = pagesOf list + size / pgsz := by
  rw [← ordered.pagesOf_mul, ← ordered'.pagesOf_mul] at more
  obtain ⟨n, rfl⟩ := whole
  simp only [pgsz] at more ⊢
  omega

theorem Ordered.pagesOf_bmod (ordered : Ordered h list) :
    (pagesOf list : Int).bmod (2 ^ 64) = pagesOf list := by
  have bound := ordered.pagesOf_small
  have := h.small
  simp only [pgsz] at bound
  apply Int.bmod_eq_of_le_mul_two <;> omega

theorem Granted.counted (granted : Granted h s addr size r s') (ordered : Ordered h s.heapVmaList)
    (small : size + (pgsz - 1) < 2 ^ 63) (fresh : (PageCall.get addr size).Fresh s)
    (counted : s.allocedPages = pagesOf s.heapVmaList) :
    s'.allocedPages = pagesOf s'.heapVmaList := by
  have apart : Disjoint (Finset.Ico r (r + roundUp size)) (cover s.heapVmaList) := by
    by_cases asked : roundDown addr = 0
    · exact granted.free asked
    · rw [granted.placed asked]
      exact fresh asked
  have more : (cover s'.heapVmaList).card = (cover s.heapVmaList).card + roundUp size := by
    rw [granted.covers, Finset.card_union_of_disjoint apart.symm, Nat.card_Ico, Nat.add_sub_cancel_left]
  have pages := counted_of_card ordered granted.ordered (roundUp_spec small).1 more
  rw [granted.pages, counted, ← granted.ordered.pagesOf_bmod, pages, Int.natCast_add, Int.natCast_ediv]

/-- In order, with the counter at its number of pages. -/
structure Counted (h : Pages) (s : PageState) : Prop where
  ordered : Ordered h s.heapVmaList
  counted : s.allocedPages = pagesOf s.heapVmaList

theorem Ordered.counted {call : PageCall} (ordered : Ordered h s.heapVmaList) (orderly : call.Orderly s)
    (fresh : call.Fresh s) (counted : s.allocedPages = pagesOf s.heapVmaList)
    (called : s.call h call = some s') : s'.allocedPages = pagesOf s'.heapVmaList := by
  cases call with
  | get addr size =>
    cases called
    obtain ⟨_, same⟩ | ⟨_, granted⟩ := getReservedPages_spec ordered orderly Prod.mk.eta.symm
    · rwa [same]
    · exact granted.counted ordered orderly fresh counted
  | free addr size =>
    obtain ⟨whole, whole', covered, safe⟩ := orderly
    cases size with
    | zero =>
      simp only [PageState.call, freePages, or_true, if_true, Option.some.injEq] at called
      rwa [← called]
    | succ size =>
      obtain ⟨t, freed, ordered', covers, pages⟩ :=
        freePages_spec ordered size.succ_pos whole whole' covered safe
      rw [PageState.call, freed, Option.some.injEq] at called
      rw [called] at ordered' covers pages
      have more : (cover s.heapVmaList).card = (cover s'.heapVmaList).card + (size + 1) := by
        rw [covers, Finset.card_sdiff_of_subset covered, Nat.card_Ico]
        have := Finset.card_le_card covered
        rw [Nat.card_Ico] at this
        omega
      rw [pages, counted, counted_of_card ordered' ordered whole' more, Int.natCast_add, Int.natCast_ediv,
        Int.add_sub_cancel, ordered'.pagesOf_bmod]

/-- In every run of orderly calls the list is in order, a request gets nothing or whole pages of the heap
    that become part of the list, free ones unless an address was asked for, and a free takes exactly
    its range out; and where no request asked for pages in use, the counter is their number. -/
theorem enclavePages_run {calls : List PageCall}
    (run : calls.foldlM (PageState.call h) .init = some s)
    (orderly : ∀ pre call, pre ++ [call] <+: calls →
      ∀ t, pre.foldlM (PageState.call h) .init = some t → call.Orderly t) :
    Ordered h s.heapVmaList ∧
      (∀ addr size, (PageCall.get addr size).Orderly s →
        ∀ r s', getReservedPages h s addr size = (r, s') →
          (r = 0 ∧ s' = s) ∨ (r ≠ 0 ∧ Granted h s addr size r s')) ∧
      (∀ addr size, (PageCall.free addr size).Orderly s →
        ∃ s', freePages h s addr size = some s' ∧ Ordered h s'.heapVmaList ∧
          cover s'.heapVmaList = cover s.heapVmaList \ Finset.Ico addr (addr + size)) ∧
      ((∀ pre call, pre ++ [call] <+: calls →
          ∀ t, pre.foldlM (PageState.call h) .init = some t → call.Fresh t) →
        s.allocedPages = pagesOf s.heapVmaList) := by
  have ordered : Ordered h s.heapVmaList := by
    apply foldlM_invariant (fun _ _ _ ordered orderly called => ?_) calls .init s ordered_nil orderly run
    exact Ordered.call ordered orderly called
  refine ⟨ordered, fun addr size small r s' result => getReservedPages_spec ordered small result,
    fun addr size orderly => ?_, fun fresh => ?_⟩
  · obtain ⟨whole, whole', covered, safe⟩ := orderly
    cases size with
    | zero =>
      refine ⟨s, ?_, ordered, ?_⟩
      · simp only [freePages, or_true, if_true]
      · simp
    | succ size =>
      obtain ⟨t, freed, ordered', covers, _⟩ :=
        freePages_spec ordered size.succ_pos whole whole' covered safe
      exact ⟨t, freed, ordered', covers⟩
  · have counted : Counted h s := by
      apply foldlM_invariant (fun _ _ _ inv met called => ?_) calls .init s ⟨ordered_nil, rfl⟩
        (fun pre call within t before =>
          And.intro (orderly pre call within t before) (fresh pre call within t before)) run
      exact ⟨inv.ordered.call met.1 called, inv.ordered.counted met.1 met.2 inv.counted called⟩
    exact counted.counted

/-- Orderly and fresh, as the entries of the list show. -/
def PageCall.ByEntries (s : PageState) : PageCall → Prop
  | .get addr size => size + (pgsz - 1) < 2 ^ 63 ∧ (roundDown addr ≠ 0 →
      ∀ v ∈ s.heapVmaList, v.top ≤ roundDown addr ∨ roundDown addr + roundUp size ≤ v.bottom)
  | .free addr size => pgsz ∣ addr ∧ pgsz ∣ size ∧
      (∃ v ∈ s.heapVmaList, v.bottom ≤ addr ∧ addr + size ≤ v.top) ∧ s.heapVmaList.length ≠ 1

instance (s : PageState) : (call : PageCall) → Decidable (call.ByEntries s)
  | .get _ _ => instDecidableAnd
  | .free _ _ => instDecidableAnd

theorem PageCall.ByEntries.orderly {call : PageCall} (byEntries : call.ByEntries s) : call.Orderly s := by
  cases call with
  | get addr size => exact byEntries.1
  | free addr size =>
    obtain ⟨whole, whole', ⟨v, member, low, high⟩, several⟩ := byEntries
    refine ⟨whole, whole', fun a inside => ?_, ?_⟩
    · have := Finset.mem_Ico.mp inside
      exact mem_cover.mpr ⟨v, member, by omega, by omega⟩
    · rintro ⟨v, only, _⟩
      simp [only] at several

theorem PageCall.ByEntries.fresh {call : PageCall} (byEntries : call.ByEntries s) : call.Fresh s := by
  cases call with
  | get addr size =>
    intro asked
    rw [Finset.disjoint_left]
    intro a inside covered
    obtain ⟨v, member, low, high⟩ := mem_cover.mp covered
    have := Finset.mem_Ico.mp inside
    have := byEntries.2 asked v member
    omega
  | free addr size => trivial

def smallHeap : Pages where
  base := 0x10000
  size := 0x10000
  base_aligned := by decide
  size_aligned := by decide
  positive := by decide
  small := by decide

/-- Two pages at the top, two where they are asked for, one merged with the first two, and a free out of
    the middle of these. -/
def pageCalls : List PageCall :=
  [.get 0 0x1800, .get 0x12345 0x1801, .get 0 0x1000, .free 0x1e000 0x1000]

theorem enclavePages_run_split : ∃ s, pageCalls.foldlM (PageState.call smallHeap) .init = some s ∧
    s.heapVmaList = [⟨0x1f000, 0x20000⟩, ⟨0x1d000, 0x1e000⟩, ⟨0x12000, 0x14000⟩] ∧
      Ordered smallHeap s.heapVmaList ∧ s.allocedPages = pagesOf s.heapVmaList := by
  have ran : (pageCalls.foldlM (PageState.call smallHeap) .init).map (·.heapVmaList) =
      some [⟨0x1f000, 0x20000⟩, ⟨0x1d000, 0x1e000⟩, ⟨0x12000, 0x14000⟩] := by decide +kernel
  obtain ⟨s, run, list⟩ := Option.map_eq_some_iff.mp ran
  have met : ∀ pre call, pre ++ [call] <+: pageCalls →
      ∀ t, pre.foldlM (PageState.call smallHeap) .init = some t → call.ByEntries t := by
    apply cond_of_meets
    decide +kernel
  have all := enclavePages_run run fun pre call within t before => (met pre call within t before).orderly
  exact ⟨s, run, list, all.1,
    all.2.2.2 fun pre call within t before => (met pre call within t before).fresh⟩

/-- A request for an address in the middle of pages in use gets it, and the counter counts them twice. -/
theorem getReservedPages_overlaps : ¬ ∀ (h : Pages) (calls : List PageCall) (s : PageState),
    calls.foldlM (PageState.call h) .init = some s →
      (∀ pre call, pre ++ [call] <+: calls →
        ∀ t, pre.foldlM (PageState.call h) .init = some t → call.Orderly t) →
      ∀ addr size, size + (pgsz - 1) < 2 ^ 63 → ∀ r s', getReservedPages h s addr size = (r, s') → r ≠ 0 →
        Disjoint (Finset.Ico r (r + roundUp size)) (cover s.heapVmaList) ∧
          s'.allocedPages = pagesOf s'.heapVmaList := by
  intro all
  have met : ∀ pre call, pre ++ [call] <+: [PageCall.get 0x12000 0x2000] →
      ∀ t, pre.foldlM (PageState.call smallHeap) .init = some t → call.ByEntries t := by
    apply cond_of_meets
    decide +kernel
  have result : getReservedPages smallHeap ⟨[⟨0x12000, 0x14000⟩], 2, 0⟩ 0x13000 0x2000 =
      (0x13000, ⟨[⟨0x12000, 0x15000⟩], 4, 0⟩) := by decide +kernel
  have counted := (all smallHeap [.get 0x12000 0x2000] ⟨[⟨0x12000, 0x14000⟩], 2, 0⟩ (by decide +kernel)
    (fun pre call within t before => (met pre call within t before).orderly) 0x13000 0x2000 (by decide)
    _ _ result (by decide)).2
  revert counted
  decide +kernel

end SandboxTEE.Heap
