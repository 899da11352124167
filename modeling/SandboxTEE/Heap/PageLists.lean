import SandboxTEE.Heap.EnclavePages

/-! # What the loops of the page manager make of the list -/

namespace SandboxTEE.Heap

open SandboxTEE.Lib
open SandboxTEE.Lib.HalfOpen

variable {addr top : Nat} {vma x y : HeapVma} {above below list : List HeapVma} {P : Nat → Prop}

/-- Every end of an entry has the property. -/
def Ends (P : Nat → Prop) (list : List HeapVma) : Prop := ∀ v ∈ list, P v.bottom ∧ P v.top

theorem ends_cons : Ends P (vma :: list) ↔ (P vma.bottom ∧ P vma.top) ∧ Ends P list :=
  List.forall_mem_cons

theorem ends_append {list' : List HeapVma} : Ends P (list ++ list') ↔ Ends P list ∧ Ends P list' :=
  List.forall_mem_append

/-! ## Merging -/

/-- What the first loop has merged so far, the range itself to begin with, and what it leaves. -/
structure MergedPrev (P : Nat → Prop) (addr : Nat) (x : HeapVma) (above : List HeapVma)
    (y : HeapVma) (rest : List HeapVma) : Prop where
  bottom : y.bottom = addr
  top : x.top ≤ y.top
  falling : Falling rest.reverse
  gap : ∀ v ∈ rest, y.top < v.bottom
  part : ∀ v ∈ rest, v ∈ above
  covers : cover rest ∪ y.points = cover above ∪ x.points
  ends : P x.top → P y.top

theorem MergedPrev.step {prev : HeapVma} {rest : List HeapVma} (start : x.bottom = addr)
    (near : prev.bottom ≤ x.top) (behind : addr ≤ prev.bottom) (good : P prev.bottom ∧ P prev.top)
    (more : MergedPrev P addr ⟨addr, max x.top prev.top⟩ above y rest) :
    MergedPrev P addr x (prev :: above) y rest where
  bottom := more.bottom
  top := (Nat.le_max_left ..).trans more.top
  falling := more.falling
  gap := more.gap
  part := fun v member => List.mem_cons_of_mem _ (more.part v member)
  covers := by
    rw [more.covers]
    ext a
    simp only [cover_cons, Finset.mem_union, mem_points, start]
    constructor
    · rintro (above | ⟨low, high⟩)
      · exact .inl (.inr above)
      · by_cases old : a < x.top
        · exact .inr ⟨low, old⟩
        · exact .inl (.inl ⟨by omega, by omega⟩)
    · rintro ((⟨low, high⟩ | above) | ⟨low, high⟩)
      · exact .inr ⟨by omega, by omega⟩
      · exact .inl above
      · exact .inr ⟨low, by omega⟩
  ends := fun good' => more.ends (by
    rcases Nat.le_total x.top prev.top with le | le
    · rw [Nat.max_eq_right le]
      exact good.2
    · rw [Nat.max_eq_left le]
      exact good')

theorem max_eq_ite (a b : Nat) : (if b < a then a else b) = max a b := by
  split
  · next less => exact (Nat.max_eq_left less.le).symm
  · next more => exact (Nat.max_eq_right (Nat.not_lt.mp more)).symm

theorem mergePrev_spec (vma : Option HeapVma) (above : List HeapVma) (falling : Falling above.reverse)
    (behind : ∀ v ∈ above, addr ≤ v.bottom) (good : Ends P above)
    (start : (vma.getD ⟨addr, top⟩).bottom = addr) (reach : top ≤ (vma.getD ⟨addr, top⟩).top)
    (gap : ∀ v ∈ above, top < v.bottom → (vma.getD ⟨addr, top⟩).top < v.bottom) :
    MergedPrev P addr (vma.getD ⟨addr, top⟩) above
      ((mergePrev addr top vma above).1.getD ⟨addr, top⟩) (mergePrev addr top vma above).2 := by
  induction above generalizing vma with
  | nil =>
    exact ⟨start, Nat.le_refl _, falling, by simp [mergePrev], fun _ member => member, rfl, id⟩
  | cons prev above ih =>
    have whole := falling
    rw [List.reverse_cons, falling_append] at falling
    obtain ⟨higher, lowest, apart⟩ := falling
    obtain ⟨first, good⟩ := ends_cons.mp good
    have proper := lowest.proper prev List.mem_cons_self
    have later : ∀ v ∈ above, prev.top < v.bottom := fun v member =>
      apart v (List.mem_reverse.mpr member) prev List.mem_cons_self
    unfold mergePrev
    split
    · next far =>
      refine ⟨start, Nat.le_refl _, whole, ?_, fun _ member => member, rfl, id⟩
      refine List.forall_mem_cons.mpr ⟨gap prev List.mem_cons_self far, fun v member => ?_⟩
      have := later v member
      exact gap v (List.mem_cons_of_mem _ member) (by omega)
    · next near =>
      have more := ih (some ⟨addr, max (vma.getD ⟨addr, top⟩).top prev.top⟩) higher
        (fun v member => behind v (List.mem_cons_of_mem _ member)) good rfl
        (reach.trans (Nat.le_max_left ..)) (fun v member far =>
          Nat.max_lt.mpr ⟨gap v (List.mem_cons_of_mem _ member) far, later v member⟩)
      have merged := MergedPrev.step start ((Nat.not_lt.mp near).trans reach)
        (behind prev List.mem_cons_self) first more
      cases vma with
      | none =>
        simp only [max_eq_ite]
        exact merged
      | some v =>
        simp only [max_eq_ite, Nat.max_comm prev.top]
        rw [show v.bottom = addr from start]
        exact merged

/-- The same for the second loop, with what it found merged above. -/
structure MergedNext (P : Nat → Prop) (addr : Nat) (x : HeapVma) (below : List HeapVma)
    (y : HeapVma) (rest : List HeapVma) : Prop where
  bottom : y.bottom ≤ addr
  top : x.top ≤ y.top
  reach : y.top = x.top ∨ ∃ v ∈ below, y.top = v.top
  falling : Falling rest
  gap : ∀ v ∈ rest, v.top < y.bottom
  part : ∀ v ∈ rest, v ∈ below
  covers : y.points ∪ cover rest = x.points ∪ cover below
  ends : P x.bottom ∧ P x.top → P y.bottom ∧ P y.top

/-- Only the nearest entry below can touch the range. -/
theorem mergeNext_spec (vma : Option HeapVma) (below : List HeapVma) (falling : Falling below)
    (low : ∀ v ∈ below, v.bottom < addr) (good : Ends P below)
    (start : (vma.getD ⟨addr, top⟩).bottom = addr) (proper : addr < (vma.getD ⟨addr, top⟩).top)
    (inside : ∀ v, vma = some v → ∀ w ∈ below, w.top ≤ v.top) :
    MergedNext P addr (vma.getD ⟨addr, top⟩) below
      ((mergeNext addr top vma below).1.getD ⟨addr, top⟩) (mergeNext addr top vma below).2 := by
  cases below with
  | nil =>
    exact ⟨start.le, Nat.le_refl _, .inl rfl, falling_nil, by simp [mergeNext], fun _ member => member,
      rfl, id⟩
  | cons next below =>
    obtain ⟨proper', lower, falling'⟩ := falling_cons.mp falling
    obtain ⟨first, good⟩ := ends_cons.mp good
    have next_low := low next List.mem_cons_self
    unfold mergeNext
    split
    · next far =>
      refine ⟨start.le, Nat.le_refl _, .inl rfl, falling, ?_, fun _ member => member, rfl, id⟩
      rw [start]
      refine List.forall_mem_cons.mpr ⟨far, fun v member => ?_⟩
      have := lower v member
      omega
    · next near =>
      have stops : ∀ v, mergeNext addr top (some v) below = (some v, below) := fun v => by
        cases below with
        | nil => rfl
        | cons after below =>
          have := lower after List.mem_cons_self
          exact if_pos (by omega)
      have merged : MergedNext P addr (vma.getD ⟨addr, top⟩) (next :: below)
          ⟨next.bottom, max (vma.getD ⟨addr, top⟩).top next.top⟩ below := by
        refine ⟨next_low.le, Nat.le_max_left .., ?_, falling', lower,
          fun v member => List.mem_cons_of_mem _ member, ?_, fun ends => ⟨first.1, ?_⟩⟩
        · rcases Nat.le_total (vma.getD ⟨addr, top⟩).top next.top with le | le
          · exact .inr ⟨next, List.mem_cons_self, Nat.max_eq_right le⟩
          · exact .inl (Nat.max_eq_left le)
        · rw [cover_cons, ← Finset.union_assoc]
          congr 1
          ext a
          simp only [Finset.mem_union, mem_points, start]
          omega
        · rcases Nat.le_total (vma.getD ⟨addr, top⟩).top next.top with le | le
          · rw [Nat.max_eq_right le]
            exact first.2
          · rw [Nat.max_eq_left le]
            exact ends.2
      cases vma with
      | none =>
        simp only [max_eq_ite, stops]
        exact merged
      | some v =>
        simp only [stops]
        rw [show (some v : Option HeapVma).getD ⟨addr, top⟩ = v from rfl,
          Nat.max_eq_left (inside v rfl next List.mem_cons_self)] at merged
        exact merged

theorem mergePrev_isSome (merged : (mergePrev addr top none above).1.isSome = true) :
    ∃ prev ∈ above, prev.bottom ≤ top := by
  cases above with
  | nil => cases merged
  | cons prev above =>
    unfold mergePrev at merged
    split at merged
    · cases merged
    · next near => exact ⟨prev, List.mem_cons_self, Nat.not_lt.mp near⟩

/-- A range between the entries above it and those below becomes part of the list. -/
theorem allocate_list {size : Nat} (s : PageState) (fits : addr + size < 2 ^ 64) (nonempty : 0 < size)
    (falling : Falling (above.reverse ++ below)) (high : ∀ v ∈ above, addr ≤ v.bottom)
    (low : ∀ v ∈ below, v.bottom < addr) (good : Ends P (above.reverse ++ below))
    (range : P addr ∧ P (addr + size)) : let list := (allocate s addr size above below).heapVmaList
    Falling list ∧ Ends P list ∧
      cover list = cover (above.reverse ++ below) ∪ Finset.Ico addr (addr + size) := by
  have top : add64 addr size = addr + size := Nat.mod_eq_of_lt fits
  obtain ⟨fallingAbove, fallingBelow, across⟩ := falling_append.mp falling
  obtain ⟨goodAbove, goodBelow⟩ := ends_append.mp good
  have goodAbove' : Ends P above := fun v member => goodAbove v (List.mem_reverse.mpr member)
  have upper := @mergePrev_spec addr (addr + size) P none above fallingAbove high goodAbove'
    rfl (Nat.le_refl _) (fun _ _ far => far)
  have inside : ∀ vma v w, (mergePrev addr (addr + size) none above).1 = vma → vma = some v →
      w ∈ below → w.top ≤ v.top := by
    rintro _ v w found rfl member
    obtain ⟨prev, member', near⟩ := mergePrev_isSome (Option.isSome_of_eq_some found)
    have apart := across prev (List.mem_reverse.mpr member') w member
    have reached := upper.top
    rw [found] at reached
    change addr + size ≤ v.top at reached
    omega
  simp only [allocate, top]
  generalize mergePrev addr (addr + size) none above = prevs at upper inside
  obtain ⟨vma, rest⟩ := prevs
  have lower := mergeNext_spec vma below fallingBelow low goodBelow upper.bottom
    ((Nat.lt_add_of_pos_right nonempty).trans_le upper.top) (fun v same w member => inside vma v w rfl same member)
  generalize mergeNext addr (addr + size) vma below = nexts at lower
  obtain ⟨vma', rest'⟩ := nexts
  simp only at upper lower ⊢
  generalize vma.getD ⟨addr, addr + size⟩ = x at upper lower
  generalize vma'.getD ⟨addr, addr + size⟩ = y at lower ⊢
  have ends := lower.ends ⟨upper.bottom ▸ range.1, upper.ends range.2⟩
  have clear : ∀ v ∈ rest, y.top < v.bottom := fun v member => by
    obtain same | ⟨w, member', same⟩ := lower.reach
    · rw [same]
      exact upper.gap v member
    · rw [same]
      exact across v (List.mem_reverse.mpr (upper.part v member)) w member'
  have lower_bottom := lower.bottom
  have x_bottom := upper.bottom
  have x_top := upper.top
  have y_top := lower.top
  refine ⟨?_, ?_, ?_⟩
  · refine falling_append.mpr ⟨upper.falling, falling_cons.mpr ⟨?_, lower.gap, lower.falling⟩, ?_⟩
    · change addr + size ≤ x.top at x_top
      omega
    · intro v member
      have member := List.mem_reverse.mp member
      refine List.forall_mem_cons.mpr ⟨clear v member, fun w member' => ?_⟩
      exact across v (List.mem_reverse.mpr (upper.part v member)) w (lower.part w member')
  · refine ends_append.mpr ⟨fun v member => ?_, ends_cons.mpr ⟨ends, fun v member => ?_⟩⟩
    · exact goodAbove' v (upper.part v (List.mem_reverse.mp member))
    · exact goodBelow v (lower.part v member)
  · have above_cover := upper.covers
    have below_cover := lower.covers
    rw [cover_append, cover_append, cover_cons, cover_reverse, cover_reverse, below_cover,
      ← Finset.union_assoc, above_cover]
    ext a
    simp only [Finset.mem_union, Option.getD_none, points]
    tauto

/-! ## Freeing -/

/-- What is left of a list when a range is taken out of it. -/
structure Freed (P : Nat → Prop) (addr addrTop : Nat) (list left : List HeapVma) : Prop where
  falling : Falling left
  part : ∀ w ∈ left, ∃ v ∈ list, v.bottom ≤ w.bottom ∧ w.top ≤ v.top
  covers : cover left = cover list \ Finset.Ico addr addrTop
  ends : Ends P list → Ends P left

/-- The first entry leaves some pieces of itself. -/
theorem Freed.cons {pieces left : List HeapVma} (lower : ∀ w ∈ list, w.top < vma.bottom)
    (falling : Falling pieces) (part : ∀ w ∈ pieces, vma.bottom ≤ w.bottom ∧ w.top ≤ vma.top)
    (covers : cover pieces = vma.points \ Finset.Ico addr top)
    (ends : P vma.bottom ∧ P vma.top → Ends P pieces) (rest : Freed P addr top list left) :
    Freed P addr top (vma :: list) (pieces ++ left) where
  falling := by
    refine falling_append.mpr ⟨falling, rest.falling, fun v member w member' => ?_⟩
    obtain ⟨u, member'', _, high⟩ := rest.part w member'
    have := lower u member''
    have := (part v member).1
    omega
  part := by
    intro w member
    rcases List.mem_append.mp member with first | later
    · exact ⟨vma, List.mem_cons_self, part w first⟩
    · obtain ⟨v, member', inside⟩ := rest.part w later
      exact ⟨v, List.mem_cons_of_mem _ member', inside⟩
  covers := by
    rw [cover_append, cover_cons, covers, rest.covers, Finset.union_sdiff_distrib]
  ends := fun good => by
    obtain ⟨first, good⟩ := ends_cons.mp good
    exact ends_append.mpr ⟨ends first, rest.ends good⟩

/-- The entry touches the range: what stands out on either side stays. -/
theorem Freed.cut {left upper lower : List HeapVma} (below : ∀ w ∈ list, w.top < vma.bottom)
    (range : addr < top) (good : P addr ∧ P top) (starts : vma.bottom < top) (ends : addr < vma.top)
    (is_upper : upper = if top < vma.top then [⟨top, vma.top⟩] else [])
    (is_lower : lower = if vma.bottom < addr then [⟨vma.bottom, addr⟩] else [])
    (rest : Freed P addr top list left) : Freed P addr top (vma :: list) (upper ++ lower ++ left) := by
  have mem_upper : ∀ w, w ∈ upper ↔ w = ⟨top, vma.top⟩ ∧ top < vma.top := fun w => by
    subst is_upper
    split <;> simp_all
  have mem_lower : ∀ w, w ∈ lower ↔ w = ⟨vma.bottom, addr⟩ ∧ vma.bottom < addr := fun w => by
    subst is_lower
    split <;> simp_all
  apply Freed.cons below _ _ _ _ rest
  · refine falling_append.mpr ⟨?_, ?_, fun v member w member' => ?_⟩
    · subst is_upper
      split <;> simp_all [falling_cons, falling_nil]
    · subst is_lower
      split <;> simp_all [falling_cons, falling_nil]
    · obtain ⟨rfl, _⟩ := (mem_upper v).mp member
      obtain ⟨rfl, _⟩ := (mem_lower w).mp member'
      exact range
  · intro w member
    rcases List.mem_append.mp member with member | member
    · obtain ⟨rfl, _⟩ := (mem_upper w).mp member
      exact ⟨starts.le, Nat.le_refl _⟩
    · obtain ⟨rfl, _⟩ := (mem_lower w).mp member
      exact ⟨Nat.le_refl _, ends.le⟩
  · ext a
    simp only [cover_append, Finset.mem_union, Finset.mem_sdiff, mem_cover, mem_upper, mem_lower,
      mem_points, Finset.mem_Ico]
    constructor
    · rintro (⟨_, ⟨rfl, _⟩, low, high⟩ | ⟨_, ⟨rfl, _⟩, low, high⟩)
      · exact ⟨⟨starts.le.trans low, high⟩, fun inside => Nat.not_lt.mpr low inside.2⟩
      · exact ⟨⟨low, high.trans ends⟩, fun inside => Nat.not_lt.mpr inside.1 high⟩
    · rintro ⟨⟨low, high⟩, outside⟩
      by_cases side : a < addr
      · exact .inr ⟨_, ⟨rfl, low.trans_lt side⟩, low, side⟩
      · have past : top ≤ a := by omega
        exact .inl ⟨_, ⟨rfl, past.trans_lt high⟩, past, high⟩
  · intro own w member
    rcases List.mem_append.mp member with member | member
    · obtain ⟨rfl, _⟩ := (mem_upper w).mp member
      exact ⟨good.2, own.2⟩
    · obtain ⟨rfl, _⟩ := (mem_lower w).mp member
      exact ⟨own.1, good.1⟩

theorem freeLoop_spec {first : Bool} {left : List HeapVma} (falling : Falling list) (range : addr < top)
    (good : P addr ∧ P top) (done : freeLoop addr top first list = some left) :
    Freed P addr top list left := by
  induction list generalizing first left with
  | nil =>
    cases done
    exact ⟨falling, by simp, by simp [cover], id⟩
  | cons vma list ih =>
    obtain ⟨proper, lower, falling'⟩ := falling_cons.mp falling
    unfold freeLoop at done
    split at done
    · next high =>
      -- the entry lies above the range
      obtain ⟨rest, more, rfl⟩ := Option.map_eq_some_iff.mp done
      rw [← List.singleton_append (l := rest)]
      refine Freed.cons lower ?_ ?_ ?_ ?_ (ih falling' more)
      · exact falling_cons.mpr ⟨proper, by simp, falling_nil⟩
      · simp
      · ext a
        simp only [cover, Finset.union_empty, Finset.mem_sdiff, mem_points, Finset.mem_Ico]
        omega
      · intro ends
        simpa [Ends] using ends
    · next reaches =>
      split at done
      · next low =>
        cases done
        refine ⟨falling, fun w member => ⟨w, member, Nat.le_refl _, Nat.le_refl _⟩, ?_, id⟩
        symm
        apply Finset.sdiff_eq_self_of_disjoint
        rw [Finset.disjoint_left]
        intro a covered inside
        obtain ⟨w, member, _, below⟩ := mem_cover.mp covered
        have := (Finset.mem_Ico.mp inside).1
        rcases List.mem_cons.mp member with rfl | later
        · omega
        · have := lower w later
          omega
      · next touches =>
        have starts := Nat.not_le.mp reaches
        have ends := Nat.not_le.mp touches
        dsimp only at done
        generalize is_lower : (if vma.bottom < addr then [(⟨vma.bottom, addr⟩ : HeapVma)] else []) =
          lower' at done
        split at done
        · next whole =>
          split at done
          · cases done
          · obtain ⟨rest, more, rfl⟩ := Option.map_eq_some_iff.mp done
            exact Freed.cut lower range good starts ends (if_neg (Nat.not_lt.mpr whole)).symm
              is_lower.symm (ih falling' more)
        · next part =>
          obtain ⟨rest, more, rfl⟩ := Option.map_eq_some_iff.mp done
          exact Freed.cut lower range good starts ends (if_pos (Nat.not_le.mp part)).symm
            is_lower.symm (ih falling' more)

/-- The loop gives a list: a range inside one entry is cut out of it, unless it is the upper part of
    the only entry. -/
theorem freeLoop_isSome {first : Bool} (falling : Falling list) (range : addr < top)
    (member : vma ∈ list) (inside : vma.bottom ≤ addr ∧ top ≤ vma.top)
    (safe : ¬(first = true ∧ list = [vma] ∧ vma.bottom < addr ∧ vma.top = top)) :
    (freeLoop addr top first list).isSome = true := by
  induction list generalizing first with
  | nil => cases member
  | cons u list ih =>
    obtain ⟨proper, lower, falling'⟩ := falling_cons.mp falling
    unfold freeLoop
    rcases List.mem_cons.mp member with rfl | later
    · -- the rest of the list lies below the range
      have stops : ∀ first, freeLoop addr top first list = some list := fun first => by
        cases list with
        | nil => rfl
        | cons w list =>
          have := lower w List.mem_cons_self
          have := (falling_cons.mp falling').1
          unfold freeLoop
          rw [if_neg (by omega), if_pos (by omega)]
      rw [if_neg (by omega), if_neg (by omega)]
      dsimp only
      split
      · next whole =>
        rw [if_neg, stops]
        · rfl
        · rintro ⟨start, only, cut⟩
          have cut' : vma.bottom < addr := by
            by_contra whole
            exact cut (if_neg whole)
          exact safe ⟨start, by rw [only], cut', by omega⟩
      · rw [stops]
        rfl
    · have := lower vma later
      rw [if_pos (by omega), Option.isSome_map]
      exact ih falling' later fun bad => Bool.noConfusion bad.1

/-- With gaps between the entries, a range that is covered lies inside one of them. -/
theorem covered_within (falling : Falling list) (range : addr < top)
    (covered : Finset.Ico addr top ⊆ cover list) : ∃ v ∈ list, v.bottom ≤ addr ∧ top ≤ v.top := by
  obtain ⟨v, member, low, high⟩ := mem_cover.mp (covered (Finset.mem_Ico.mpr ⟨Nat.le_refl _, range⟩))
  refine ⟨v, member, low, Nat.not_lt.mp fun short => ?_⟩
  -- the end of the entry would be covered by another one
  obtain ⟨w, member', low', high'⟩ := mem_cover.mp (covered (Finset.mem_Ico.mpr ⟨high.le, short⟩))
  rcases falling.separate member member' with rfl | above | below
  · exact Nat.lt_irrefl _ high'
  · omega
  · have := falling.proper v member
    omega

end SandboxTEE.Heap
