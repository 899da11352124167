import SandboxTEE.Stdlib.Qsort

/-! # Correctness of `qsort`

Whenever the comparator is the three-way comparison of a key on the values of the
array, `qsort` permutes the array and leaves it non-decreasing in the key.

* `sinkDown_spec`, `insertionSort_spec`: the short-array path.
* `Partition.Inv`: the four regions of Bentley and McIlroy's partition; it is kept
  by both scans and by the exchange, and `loop_spec` runs it to `pb > pc`.
* `gather_spec`: the two block exchanges put the pivots in the middle.
* `qsortCells_spec`: the recursion, by induction on the fuel.
-/

namespace SandboxTEE.Stdlib

open SandboxTEE.Lib

variable {α β : Type} [LinearOrder β]

/-- On the values satisfying `S`, `cmp` is the three-way comparison of the keys. -/
structure Compares (cmp : α → α → Int) (key : α → β) (S : α → Prop) : Prop where
  neg : ∀ {x y}, S x → S y → (cmp x y < 0 ↔ key x < key y)
  pos : ∀ {x y}, S x → S y → (0 < cmp x y ↔ key y < key x)

namespace Compares

variable {cmp : α → α → Int} {key : α → β} {S : α → Prop} (h : Compares cmp key S)
include h

variable {x y : α}

theorem zero (hx : S x) (hy : S y) : cmp x y = 0 ↔ key x = key y := by
  have hneg := h.neg hx hy
  have hpos := h.pos hx hy
  constructor
  · intro eq
    exact le_antisymm (not_lt.mp fun lt => by have := hpos.mpr lt; omega)
      (not_lt.mp fun lt => by have := hneg.mpr lt; omega)
  · intro eq
    have h₁ : ¬ cmp x y < 0 := fun lt => absurd (hneg.mp lt) (by rw [eq]; exact lt_irrefl _)
    have h₂ : ¬ 0 < cmp x y := fun lt => absurd (hpos.mp lt) (by rw [eq]; exact lt_irrefl _)
    omega

theorem nonpos (hx : S x) (hy : S y) : cmp x y ≤ 0 ↔ key x ≤ key y := by
  rw [← not_lt, ← not_lt, h.pos hx hy]

end Compares

variable {cmp : α → α → Int} {key : α → β} {S : α → Prop}

/-! ## Insertion sort -/

theorem sinkDown_moves (a : Nat) : ∀ (k : Nat) (c : Cells α),
    Moves a (a + k + 1) c (sinkDown cmp a c k)
  | 0, c => Moves.refl _ _ c
  | k + 1, c => by
    rw [sinkDown]
    split
    · have swapped : Moves a (a + (k + 1) + 1) c (swap c (a + k + 1) (a + k)) :=
        Moves.swap c (by omega) (by omega) (by omega) (by omega)
      exact swapped.trans ((sinkDown_moves a k _).mono (le_refl a) (by omega))
    · exact Moves.refl _ _ c

/-- `sinkDown` started at `a + k` sorts a window in which only the value at `a + k`
    can be out of order, and only with respect to the values before it. -/
theorem sinkDown_sorted (h : Compares cmp key S) {a n : Nat} : ∀ (k : Nat) (c : Cells α),
    k ≤ n → (∀ i, a ≤ i → i ≤ a + n → S (c i)) →
    (∀ i j, a ≤ i → i < j → j ≤ a + n → i ≠ a + k → j ≠ a + k → key (c i) ≤ key (c j)) →
    (∀ j, a + k < j → j ≤ a + n → key (c (a + k)) ≤ key (c j)) →
    SortedOn key (sinkDown cmp a c k) a (a + n + 1)
  | 0, c, _, _, others, after => by
    intro i j h₁ h₂ h₃
    by_cases first : i = a
    · subst first
      exact after j (by omega) (by omega)
    · exact others i j h₁ h₂ (by omega) (by omega) (by omega)
  | k + 1, c, hk, hS, others, after => by
    rw [sinkDown]
    have hS₁ := hS (a + k) (by omega) (by omega)
    have hS₂ := hS (a + k + 1) (by omega) (by omega)
    split
    · next greater =>
      have lt : key (c (a + k + 1)) < key (c (a + k)) := (h.pos hS₁ hS₂).mp greater
      refine sinkDown_sorted h k _ (by omega) ?_ ?_ ?_
      · intro i h₁ h₂
        exact (@Moves.swap α a (a + n + 1) _ _ c (by omega) (by omega) (by omega)
          (by omega)).all (P := S) (fun i h₁ h₂ => hS i h₁ (by omega)) i h₁ (by omega)
      · intro i j h₁ h₂ h₃ hi hj
        by_cases hi' : i = a + k + 1
        · subst hi'
          rw [swap_left, swap_other c (by omega) (by omega)]
          exact others (a + k) j (by omega) (by omega) h₃ (by omega) (by omega)
        · rw [swap_other c hi' (by omega)]
          by_cases hj' : j = a + k + 1
          · subst hj'
            rw [swap_left]
            exact others i (a + k) h₁ (by omega) (by omega) (by omega) (by omega)
          · rw [swap_other c hj' (by omega)]
            exact others i j h₁ h₂ h₃ (by omega) (by omega)
      · intro j h₁ h₂
        rw [swap_right]
        by_cases hj' : j = a + k + 1
        · subst hj'
          rw [swap_left]
          exact le_of_lt lt
        · rw [swap_other c hj' (by omega)]
          exact after j (by omega) h₂
    · next notGreater =>
      have le : key (c (a + k)) ≤ key (c (a + k + 1)) :=
        (h.nonpos hS₁ hS₂).mp (by omega)
      intro i j h₁ h₂ h₃
      by_cases hi : i = a + (k + 1)
      · subst hi
        exact after j h₂ (by omega)
      · by_cases hj : j = a + (k + 1)
        · subst hj
          by_cases hi' : i = a + k
          · subst hi'
            exact le
          · exact le_trans
              (others i (a + k) h₁ (by omega) (by omega) (by omega) (by omega)) le
        · exact others i j h₁ h₂ (by omega) hi hj

theorem insertionSort_spec (h : Compares cmp key S) (a : Nat) (c : Cells α) : ∀ n : Nat,
    (∀ i, a ≤ i → i < a + n → S (c i)) →
    Moves a (a + n) c (insertionSort cmp a c n) ∧
      SortedOn key (insertionSort cmp a c n) a (a + n)
  | 0, _ => ⟨Moves.refl _ _ c, SortedOn.of_length_le_one (by omega)⟩
  | n + 1, hS => by
    obtain ⟨moved, sorted⟩ := insertionSort_spec h a c n fun i h₁ h₂ => hS i h₁ (by omega)
    have moved' : Moves a (a + (n + 1)) c (insertionSort cmp a c n) :=
      moved.mono (le_refl a) (by omega)
    rw [insertionSort]
    refine ⟨moved'.trans (sinkDown_moves a n _), ?_⟩
    refine sinkDown_sorted h n _ (le_refl n) ?_ ?_ ?_
    · intro i h₁ h₂
      exact moved'.all (P := S) hS i h₁ (by omega)
    · intro i j h₁ h₂ h₃ hi hj
      exact sorted i j h₁ h₂ (by omega)
    · intro j h₁ h₂
      omega

/-! ## The pivot -/

theorem med3_mem (c : Cells α) (i j k : Nat) :
    med3 cmp c i j k = i ∨ med3 cmp c i j k = j ∨ med3 cmp c i j k = k := by
  unfold med3
  split_ifs <;> simp

theorem pivotIndex_mem (c : Cells α) (a : Nat) {n : Nat} (hn : 0 < n) :
    a ≤ pivotIndex cmp c a n ∧ pivotIndex cmp c a n < a + n := by
  simp only [pivotIndex]
  split_ifs with h₁ h₂
  · rcases @med3_mem α cmp c a (a + n / 8) (a + 2 * (n / 8)) with e₁ | e₁ | e₁ <;>
    rcases @med3_mem α cmp c (a + n / 2 - n / 8) (a + n / 2) (a + n / 2 + n / 8)
      with e₂ | e₂ | e₂ <;>
    rcases @med3_mem α cmp c (a + (n - 1) - 2 * (n / 8)) (a + (n - 1) - n / 8)
      (a + (n - 1)) with e₃ | e₃ | e₃ <;>
    · rw [e₁, e₂, e₃]
      rcases @med3_mem α cmp c _ _ _ with e | e | e <;> rw [e] <;> omega
  · rcases @med3_mem α cmp c a (a + n / 2) (a + (n - 1)) with e | e | e <;>
      rw [e] <;> omega
  · omega

/-! ## The partition -/

namespace Partition

/-- The four regions around the cells still to be compared: equal to the pivot in
    `[a, pa)` and `(pd, a + n)`, smaller in `[pa, pb)`, greater in `(pc, pd]`. -/
structure Inv (key : α → β) (a n : Nat) (c₀ : Cells α) (s : Partition α) : Prop where
  pa_gt : a < s.pa
  pa_le : s.pa ≤ s.pb
  pb_le : s.pb ≤ s.pc + 1
  pc_le : s.pc ≤ s.pd
  pd_lt : s.pd < a + n
  moved : Moves (a + 1) (a + n) c₀ s.cells
  lowEqual : ∀ k, a ≤ k → k < s.pa → key (s.cells k) = key (c₀ a)
  low : ∀ k, s.pa ≤ k → k < s.pb → key (s.cells k) < key (c₀ a)
  high : ∀ k, s.pc < k → k ≤ s.pd → key (c₀ a) < key (s.cells k)
  highEqual : ∀ k, s.pd < k → k < a + n → key (s.cells k) = key (c₀ a)

variable {a n : Nat} {c₀ : Cells α} {s : Partition α}

theorem Inv.pivot (inv : Inv key a n c₀ s) : s.cells a = c₀ a :=
  inv.moved.outside (Or.inl (Nat.lt_succ_self a))

theorem Inv.all (inv : Inv key a n c₀ s) (hS : ∀ k, a ≤ k → k < a + n → S (c₀ k)) :
    ∀ k, a ≤ k → k < a + n → S (s.cells k) :=
  (inv.moved.mono (Nat.le_succ a) (le_refl _)).all hS

theorem Inv.upEqual (inv : Inv key a n c₀ s) (more : s.pb ≤ s.pc)
    (equal : key (s.cells s.pb) = key (c₀ a)) :
    Inv key a n c₀ { s with
      cells := swap s.cells s.pa s.pb, pa := s.pa + 1, pb := s.pb + 1, swapCnt := true } := by
  obtain ⟨pa_gt, pa_le, pb_le, pc_le, pd_lt, moved, lowEqual, low, high, highEqual⟩ := inv
  refine ⟨by simp only; omega, by simp only; omega, by simp only; omega, pc_le, pd_lt, ?_,
    ?_, ?_, ?_, ?_⟩
  · exact moved.trans (Moves.swap _ (by omega) (by omega) (by omega) (by omega))
  · intro k h₁ h₂
    simp only at h₂ ⊢
    by_cases hk : k = s.pa
    · rw [hk, swap_left]
      exact equal
    · rw [swap_other _ hk (by omega)]
      exact lowEqual k h₁ (by omega)
  · intro k h₁ h₂
    simp only at h₁ h₂ ⊢
    by_cases hk : k = s.pb
    · rw [hk, swap_right]
      exact low s.pa (le_refl _) (by omega)
    · rw [swap_other _ (by omega) hk]
      exact low k (by omega) (by omega)
  · intro k h₁ h₂
    simp only at h₁ h₂ ⊢
    rw [swap_other _ (by omega) (by omega)]
    exact high k h₁ h₂
  · intro k h₁ h₂
    simp only at h₁ h₂ ⊢
    rw [swap_other _ (by omega) (by omega)]
    exact highEqual k h₁ h₂

theorem Inv.upLess (inv : Inv key a n c₀ s) (more : s.pb ≤ s.pc)
    (less : key (s.cells s.pb) < key (c₀ a)) : Inv key a n c₀ { s with pb := s.pb + 1 } where
  pa_gt := inv.pa_gt
  pa_le := Nat.le_succ_of_le inv.pa_le
  pb_le := Nat.succ_le_succ more
  pc_le := inv.pc_le
  pd_lt := inv.pd_lt
  moved := inv.moved
  lowEqual := inv.lowEqual
  low := fun k h₁ h₂ => by
    by_cases hk : k = s.pb
    · rw [hk]
      exact less
    · exact inv.low k h₁ (by simp only at h₂; omega)
  high := inv.high
  highEqual := inv.highEqual

theorem Inv.downEqual (inv : Inv key a n c₀ s) (more : s.pb ≤ s.pc)
    (equal : key (s.cells s.pc) = key (c₀ a)) :
    Inv key a n c₀ { s with
      cells := swap s.cells s.pc s.pd, pd := s.pd - 1, pc := s.pc - 1, swapCnt := true } := by
  obtain ⟨pa_gt, pa_le, pb_le, pc_le, pd_lt, moved, lowEqual, low, high, highEqual⟩ := inv
  refine ⟨pa_gt, pa_le, by simp only; omega, by simp only; omega, by simp only; omega, ?_,
    ?_, ?_, ?_, ?_⟩
  · exact moved.trans (Moves.swap _ (by omega) (by omega) (by omega) (by omega))
  · intro k h₁ h₂
    simp only at h₂ ⊢
    rw [swap_other _ (by omega) (by omega)]
    exact lowEqual k h₁ h₂
  · intro k h₁ h₂
    simp only at h₁ h₂ ⊢
    rw [swap_other _ (by omega) (by omega)]
    exact low k h₁ h₂
  · intro k h₁ h₂
    simp only at h₁ h₂ ⊢
    by_cases hk : k = s.pc
    · rw [hk, swap_left]
      exact high s.pd (by omega) (le_refl _)
    · rw [swap_other _ hk (by omega)]
      exact high k (by omega) (by omega)
  · intro k h₁ h₂
    simp only at h₁ h₂ ⊢
    by_cases hk : k = s.pd
    · rw [hk, swap_right]
      exact equal
    · rw [swap_other _ (by omega) hk]
      exact highEqual k (by omega) h₂

theorem Inv.downGreater (inv : Inv key a n c₀ s) (more : s.pb ≤ s.pc)
    (greater : key (c₀ a) < key (s.cells s.pc)) : Inv key a n c₀ { s with pc := s.pc - 1 } where
  pa_gt := inv.pa_gt
  pa_le := inv.pa_le
  pb_le := by simp only; omega
  pc_le := le_trans (Nat.sub_le _ _) inv.pc_le
  pd_lt := inv.pd_lt
  moved := inv.moved
  lowEqual := inv.lowEqual
  low := inv.low
  high := fun k h₁ h₂ => by
    by_cases hk : k = s.pc
    · rw [hk]
      exact greater
    · exact inv.high k (by simp only at h₁; omega) h₂
  highEqual := inv.highEqual

theorem Inv.exchange (inv : Inv key a n c₀ s) (more : s.pb ≤ s.pc)
    (greater : key (c₀ a) < key (s.cells s.pb)) (less : key (s.cells s.pc) < key (c₀ a)) :
    Inv key a n c₀ s.exchange := by
  have apart : s.pb ≠ s.pc := fun same => absurd less (by rw [← same]; exact lt_asymm greater)
  obtain ⟨pa_gt, pa_le, pb_le, pc_le, pd_lt, moved, lowEqual, low, high, highEqual⟩ := inv
  refine ⟨pa_gt, by simp only [Partition.exchange]; omega,
    by simp only [Partition.exchange]; omega, by simp only [Partition.exchange]; omega, pd_lt,
    ?_, ?_, ?_, ?_, ?_⟩
  · exact moved.trans (Moves.swap _ (by omega) (by omega) (by omega) (by omega))
  · intro k h₁ h₂
    simp only [Partition.exchange] at h₂ ⊢
    rw [swap_other _ (by omega) (by omega)]
    exact lowEqual k h₁ h₂
  · intro k h₁ h₂
    simp only [Partition.exchange] at h₁ h₂ ⊢
    by_cases hk : k = s.pb
    · rw [hk, swap_left]
      exact less
    · rw [swap_other _ hk (by omega)]
      exact low k h₁ (by omega)
  · intro k h₁ h₂
    simp only [Partition.exchange] at h₁ h₂ ⊢
    by_cases hk : k = s.pc
    · rw [hk, swap_right]
      exact greater
    · rw [swap_other _ (by omega) hk]
      exact high k (by omega) h₂
  · intro k h₁ h₂
    simp only [Partition.exchange] at h₁ h₂ ⊢
    rw [swap_other _ (by omega) (by omega)]
    exact highEqual k h₁ h₂

variable (h : Compares cmp key S) (hS : ∀ k, a ≤ k → k < a + n → S (c₀ k))
include h hS

/-- The upward scan stops at the end of the unknown cells or at a greater one. -/
theorem scanUp_spec : ∀ (fuel : Nat) (s : Partition α), Inv key a n c₀ s → s.remaining ≤ fuel →
    let s' := scanUp cmp a fuel s
    Inv key a n c₀ s' ∧ s'.remaining ≤ s.remaining ∧
      (s'.pb ≤ s'.pc → key (c₀ a) < key (s'.cells s'.pb))
  | 0, s, inv, enough => by
    simp only [remaining] at enough
    refine ⟨inv, le_refl _, fun more => ?_⟩
    simp only [scanUp] at more
    omega
  | fuel + 1, s, inv, enough => by
    simp only [remaining] at enough
    have bounds := (⟨inv.pa_gt, inv.pa_le, inv.pc_le, inv.pd_lt⟩ :
      a < s.pa ∧ s.pa ≤ s.pb ∧ s.pc ≤ s.pd ∧ s.pd < a + n)
    rw [scanUp]
    split
    · next step =>
      have hx := inv.all hS s.pb (by omega) (by omega)
      have hp := inv.all hS a (le_refl a) (by omega)
      split
      · next zero =>
        have equal := (h.zero hx hp).mp zero
        rw [inv.pivot] at equal
        obtain ⟨inv', rem, stop⟩ := scanUp_spec fuel _ (inv.upEqual step.1 equal)
          (by simp only [remaining]; omega)
        exact ⟨inv', le_trans rem (by simp only [remaining]; omega), stop⟩
      · next nonzero =>
        have less := (h.neg hx hp).mp (by omega)
        rw [inv.pivot] at less
        obtain ⟨inv', rem, stop⟩ := scanUp_spec fuel _ (inv.upLess step.1 less)
          (by simp only [remaining]; omega)
        exact ⟨inv', le_trans rem (by simp only [remaining]; omega), stop⟩
    · next stopped =>
      refine ⟨inv, le_refl _, fun more => ?_⟩
      have hx := inv.all hS s.pb (by omega) (by omega)
      have hp := inv.all hS a (le_refl a) (by omega)
      have greater := (h.pos hx hp).mp (by omega)
      rwa [inv.pivot] at greater

/-- The downward scan stops at the end of the unknown cells or at a smaller one, and
    leaves the greater cell at `pb` in place. -/
theorem scanDown_spec : ∀ (fuel : Nat) (s : Partition α), Inv key a n c₀ s →
    s.remaining ≤ fuel → (s.pb ≤ s.pc → key (c₀ a) < key (s.cells s.pb)) →
    let s' := scanDown cmp a fuel s
    Inv key a n c₀ s' ∧ s'.remaining ≤ s.remaining ∧
      (s'.pb ≤ s'.pc → key (c₀ a) < key (s'.cells s'.pb) ∧ key (s'.cells s'.pc) < key (c₀ a))
  | 0, s, inv, enough, _ => by
    simp only [remaining] at enough
    refine ⟨inv, le_refl _, fun more => ?_⟩
    simp only [scanDown] at more
    omega
  | fuel + 1, s, inv, enough, up => by
    simp only [remaining] at enough
    have bounds := (⟨inv.pa_gt, inv.pa_le, inv.pc_le, inv.pd_lt⟩ :
      a < s.pa ∧ s.pa ≤ s.pb ∧ s.pc ≤ s.pd ∧ s.pd < a + n)
    rw [scanDown]
    split
    · next step =>
      have hx := inv.all hS s.pc (by omega) (by omega)
      have hp := inv.all hS a (le_refl a) (by omega)
      split
      · next zero =>
        have equal := (h.zero hx hp).mp zero
        rw [inv.pivot] at equal
        have apart : s.pb ≠ s.pc := fun same => by
          have greater := up step.1
          rw [same, equal] at greater
          exact lt_irrefl _ greater
        obtain ⟨inv', rem, stop⟩ := scanDown_spec fuel _ (inv.downEqual step.1 equal)
          (by simp only [remaining]; omega)
          (fun _ => by simpa only [swap_other _ apart (show s.pb ≠ s.pd by omega)] using up step.1)
        exact ⟨inv', le_trans rem (by simp only [remaining]; omega), stop⟩
      · next nonzero =>
        have greater := (h.pos hx hp).mp (by omega)
        rw [inv.pivot] at greater
        obtain ⟨inv', rem, stop⟩ := scanDown_spec fuel _ (inv.downGreater step.1 greater)
          (by simp only [remaining]; omega) (fun _ => up step.1)
        exact ⟨inv', le_trans rem (by simp only [remaining]; omega), stop⟩
    · next stopped =>
      refine ⟨inv, le_refl _, fun more => ⟨up more, ?_⟩⟩
      have hx := inv.all hS s.pc (by omega) (by omega)
      have hp := inv.all hS a (le_refl a) (by omega)
      have less := (h.neg hx hp).mp (by omega)
      rwa [inv.pivot] at less

theorem loop_spec : ∀ (fuel : Nat) (s : Partition α), Inv key a n c₀ s →
    s.remaining < fuel →
    Inv key a n c₀ (loop cmp a fuel s) ∧ (loop cmp a fuel s).pb = (loop cmp a fuel s).pc + 1
  | 0, s, _, enough => absurd enough (Nat.not_lt_zero _)
  | fuel + 1, s, inv, enough => by
    obtain ⟨inv₁, rem₁, up⟩ := scanUp_spec h hS s.remaining s inv (le_refl _)
    obtain ⟨inv₂, rem₂, ends⟩ := scanDown_spec h hS (scanUp cmp a s.remaining s).remaining _ inv₁
      (le_refl _) up
    change Inv key a n c₀ (scan cmp a s) at inv₂
    change (scan cmp a s).remaining ≤ _ at rem₂
    rw [loop]
    split
    · next done => exact ⟨inv₂, le_antisymm inv₂.pb_le done⟩
    · next more =>
      obtain ⟨greater, less⟩ := ends (Nat.le_of_not_lt more)
      have inv₃ := inv₂.exchange (Nat.le_of_not_lt more) greater less
      refine loop_spec fuel _ inv₃ ?_
      have before : (scan cmp a s).remaining < fuel + 1 :=
        lt_of_le_of_lt (le_trans rem₂ rem₁) enough
      simp only [remaining, Partition.exchange] at before ⊢
      omega

end Partition

/-! ## Gathering the pivots -/

theorem vecswap_apply : ∀ (m : Nat) (c : Cells α) (i j : Nat), i + m ≤ j → ∀ k,
    vecswap c i j m k =
      if i ≤ k ∧ k < i + m then c (k - i + j)
      else if j ≤ k ∧ k < j + m then c (k - j + i) else c k
  | 0, c, i, j, _, k => by
    rw [vecswap, if_neg (by omega), if_neg (by omega)]
  | m + 1, c, i, j, apart, k => by
    rw [vecswap, vecswap_apply m _ _ _ (by omega)]
    by_cases hi : k = i
    · subst hi
      rw [if_neg (by omega), if_neg (by omega), if_pos (by omega), swap_left, Nat.sub_self,
        Nat.zero_add]
    · by_cases hj : k = j
      · subst hj
        rw [if_neg (by omega), if_neg (by omega), if_neg (by omega), if_pos (by omega),
          swap_right, Nat.sub_self, Nat.zero_add]
      · by_cases low : i ≤ k ∧ k < i + (m + 1)
        · rw [if_pos (by omega), if_pos low, swap_other _ (by omega) (by omega)]
          congr 1
          omega
        · rw [if_neg (by omega), if_neg low]
          by_cases high : j ≤ k ∧ k < j + (m + 1)
          · rw [if_pos (by omega), if_pos high, swap_other _ (by omega) (by omega)]
            congr 1
            omega
          · rw [if_neg (by omega), if_neg high, swap_other _ hi hj]

variable {lo hi : Nat}

theorem vecswap_moves : ∀ (m : Nat) (c : Cells α) (i j : Nat),
    lo ≤ i → lo ≤ j → i + m ≤ hi → j + m ≤ hi → Moves lo hi c (vecswap c i j m)
  | 0, c, _, _, _, _, _, _ => Moves.refl _ _ c
  | m + 1, c, i, j, h₁, h₂, h₃, h₄ => by
    rw [vecswap]
    exact (Moves.swap c h₁ (by omega) h₂ (by omega)).trans
      (vecswap_moves m _ _ _ (by omega) (by omega) (by omega) (by omega))

variable {c : Cells α}

/-- `vecswap(x, z - r, r)` with `r` the length of the shorter block exchanges the
    blocks `[x, y)` and `[y, z)`, up to the order inside the blocks. -/
theorem vecswap_blocks {P Q : α → Prop} {x y z : Nat} (hxy : x ≤ y) (hyz : y ≤ z)
    (first : ∀ k, x ≤ k → k < y → P (c k)) (second : ∀ k, y ≤ k → k < z → Q (c k)) :
    let c' := vecswap c x (z - min (y - x) (z - y)) (min (y - x) (z - y))
    Moves x z c c' ∧ (∀ k, x ≤ k → k < x + (z - y) → Q (c' k)) ∧
      ∀ k, x + (z - y) ≤ k → k < z → P (c' k) := by
  refine ⟨vecswap_moves _ _ _ _ (le_refl x) (by omega) (by omega) (by omega), ?_, ?_⟩
  · intro k h₁ h₂
    rw [vecswap_apply _ _ _ _ (by omega)]
    split_ifs
    · exact second _ (by omega) (by omega)
    · omega
    · exact second k (by omega) (by omega)
  · intro k h₁ h₂
    rw [vecswap_apply _ _ _ _ (by omega)]
    split_ifs
    · omega
    · exact first _ (by omega) (by omega)
    · exact first k (by omega) (by omega)

/-- After both block exchanges the smaller cells come first, then the pivots, then the
    greater cells. -/
theorem gather_spec {a n : Nat} {c₀ : Cells α} {s : Partition α}
    (inv : Partition.Inv key a n c₀ s) (done : s.pb = s.pc + 1) :
    Moves a (a + n) s.cells (gather a n s) ∧
      (∀ k, a ≤ k → k < a + (s.pb - s.pa) → key (gather a n s k) < key (c₀ a)) ∧
      (∀ k, a + (s.pb - s.pa) ≤ k → k < a + n - (s.pd - s.pc) → key (gather a n s k) = key (c₀ a)) ∧
      ∀ k, a + n - (s.pd - s.pc) ≤ k → k < a + n → key (c₀ a) < key (gather a n s k) := by
  have bounds := (⟨inv.pa_gt, inv.pa_le, inv.pc_le, inv.pd_lt⟩ :
    a < s.pa ∧ s.pa ≤ s.pb ∧ s.pc ≤ s.pd ∧ s.pd < a + n)
  obtain ⟨moved₁, less₁, equal₁⟩ := vecswap_blocks (P := fun v => key v = key (c₀ a))
    (Q := fun v => key v < key (c₀ a)) (x := a) (y := s.pa) (z := s.pb) (by omega) (by omega)
    inv.lowEqual inv.low
  generalize hc₁ : vecswap s.cells a (s.pb - min (s.pa - a) (s.pb - s.pa))
    (min (s.pa - a) (s.pb - s.pa)) = c₁ at moved₁ less₁ equal₁
  have upper : ∀ k, s.pb ≤ k → c₁ k = s.cells k := fun k hk => moved₁.outside (Or.inr hk)
  obtain ⟨moved₂, equal₂, greater₂⟩ := vecswap_blocks (c := c₁)
    (P := fun v => key (c₀ a) < key v) (Q := fun v => key v = key (c₀ a))
    (x := s.pb) (y := s.pd + 1) (z := a + n) (by omega) (by omega)
    (fun k h₁ h₂ => by rw [upper k h₁]; exact inv.high k (by omega) (by omega))
    (fun k h₁ h₂ => by rw [upper k (by omega)]; exact inv.highEqual k (by omega) h₂)
  have gathered : gather a n s = vecswap c₁ s.pb
      (a + n - min (s.pd + 1 - s.pb) (a + n - (s.pd + 1)))
      (min (s.pd + 1 - s.pb) (a + n - (s.pd + 1))) := by
    simp only [gather, hc₁]
    rw [show s.pd - s.pc = s.pd + 1 - s.pb by omega,
      show a + n - s.pd - 1 = a + n - (s.pd + 1) by omega]
  rw [← gathered] at moved₂ equal₂ greater₂
  have lower : ∀ k, k < s.pb → gather a n s k = c₁ k := fun k hk => moved₂.outside (Or.inl hk)
  refine ⟨(moved₁.mono (le_refl a) (by omega)).trans (moved₂.mono (by omega) (le_refl _)),
    ?_, ?_, ?_⟩
  · intro k h₁ h₂
    rw [lower k (by omega)]
    exact less₁ k h₁ h₂
  · intro k h₁ h₂
    by_cases hk : k < s.pb
    · rw [lower k hk]
      exact equal₁ k h₁ hk
    · exact equal₂ k (by omega) (by omega)
  · intro k h₁ h₂
    exact greater₂ k (by omega) h₂

/-! ## The sort -/

theorem Partition.init_inv (c : Cells α) (a : Nat) {n : Nat} (hn : 1 < n) :
    Inv key a n (swap c a (pivotIndex cmp c a n)) (init cmp a c n) where
  pa_gt := Nat.lt_succ_self a
  pa_le := le_refl _
  pb_le := by simp only [init]; omega
  pc_le := le_refl _
  pd_lt := by simp only [init]; omega
  moved := Moves.refl _ _ _
  lowEqual := fun k h₁ h₂ => by
    simp only [init] at h₂ ⊢
    rw [show k = a by omega]
  low := fun k h₁ h₂ => by simp only [init] at h₁ h₂; omega
  high := fun k h₁ h₂ => by simp only [init] at h₁ h₂; omega
  highEqual := fun k h₁ h₂ => by simp only [init] at h₁; omega

/-- Two sorted outer blocks around a block of pivots make a sorted window. -/
theorem SortedOn.of_blocks {p : β} {i j : Nat} (left : SortedOn key c lo i)
    (right : SortedOn key c j hi) (less : ∀ k, lo ≤ k → k < i → key (c k) < p)
    (equal : ∀ k, i ≤ k → k < j → key (c k) = p) (greater : ∀ k, j ≤ k → k < hi → p < key (c k)) :
    SortedOn key c lo hi := by
  have low : ∀ k, lo ≤ k → k < j → key (c k) ≤ p := fun k h₁ h₂ => by
    by_cases hk : k < i
    · exact le_of_lt (less k h₁ hk)
    · exact le_of_eq (equal k (by omega) h₂)
  have high : ∀ k, i ≤ k → k < hi → p ≤ key (c k) := fun k h₁ h₂ => by
    by_cases hk : k < j
    · exact le_of_eq (equal k h₁ hk).symm
    · exact le_of_lt (greater k (by omega) h₂)
  intro x y h₁ h₂ h₃
  by_cases hy : y < i
  · exact left x y h₁ h₂ hy
  · by_cases hx : x < j
    · exact le_trans (low x h₁ hx) (high y (by omega) h₃)
    · exact right x y (by omega) h₂ h₃

/-- `if (r > es) qsort(…)`: a block of at most one element is sorted as it is. -/
private theorem sortBlock_spec {fuel a m : Nat}
    (ih : Moves a (a + m) c (qsortCells cmp fuel c a m) ∧
      SortedOn key (qsortCells cmp fuel c a m) a (a + m)) :
    Moves a (a + m) c (if m > 1 then qsortCells cmp fuel c a m else c) ∧
      SortedOn key (if m > 1 then qsortCells cmp fuel c a m else c) a (a + m) := by
  split
  · exact ih
  · exact ⟨Moves.refl _ _ c, SortedOn.of_length_le_one (by omega)⟩

theorem qsortCells_spec (h : Compares cmp key S) : ∀ (fuel : Nat) (c : Cells α) (a n : Nat),
    n ≤ fuel → (∀ k, a ≤ k → k < a + n → S (c k)) →
    Moves a (a + n) c (qsortCells cmp fuel c a n) ∧
      SortedOn key (qsortCells cmp fuel c a n) a (a + n)
  | 0, c, a, n, enough, _ => ⟨Moves.refl _ _ c, SortedOn.of_length_le_one (by omega)⟩
  | fuel + 1, c, a, n, enough, hS => by
    rw [qsortCells]
    split
    · exact insertionSort_spec h a c n hS
    · next large =>
      have pm := @pivotIndex_mem α cmp c a n (by omega)
      have moved₀ : Moves a (a + n) c (swap c a (pivotIndex cmp c a n)) :=
        Moves.swap c (le_refl a) (by omega) pm.1 pm.2
      have hS₀ := moved₀.all (P := S) hS
      obtain ⟨inv, done⟩ := Partition.loop_spec h hS₀ n (Partition.init cmp a c n)
        (Partition.init_inv c a (by omega))
        (by simp only [Partition.remaining, Partition.init]; omega)
      generalize Partition.loop cmp a n (Partition.init cmp a c n) = s at inv done
      have bounds := (⟨inv.pa_gt, inv.pa_le, inv.pc_le, inv.pd_lt⟩ :
        a < s.pa ∧ s.pa ≤ s.pb ∧ s.pc ≤ s.pd ∧ s.pd < a + n)
      have moved₁ := moved₀.trans (inv.moved.mono (Nat.le_succ a) (le_refl _))
      simp only
      split
      · -- no exchange was made: the source switches to insertion sort
        obtain ⟨moved, sorted⟩ := insertionSort_spec h a s.cells n (inv.all hS₀)
        exact ⟨moved₁.trans moved, sorted⟩
      · obtain ⟨moved₂, less, equal, greater⟩ := gather_spec inv done
        have moved₂ := moved₁.trans moved₂
        have hS₂ := moved₂.all (P := S) hS
        obtain ⟨moved₃, sorted₃⟩ := sortBlock_spec
          (qsortCells_spec h fuel (gather a n s) a (s.pb - s.pa) (by omega)
            fun k h₁ h₂ => hS₂ k h₁ (by omega))
        generalize (if s.pb - s.pa > 1 then qsortCells cmp fuel (gather a n s) a (s.pb - s.pa)
          else gather a n s) = c₃ at moved₃ sorted₃
        have hS₃ := (moved₃.mono (le_refl a) (show a + (s.pb - s.pa) ≤ a + n by omega)).all
          (P := S) hS₂
        have right := sortBlock_spec
          (qsortCells_spec h fuel c₃ (a + n - (s.pd - s.pc)) (s.pd - s.pc) (by omega)
            fun k h₁ h₂ => hS₃ k (by omega) (by omega))
        rw [show a + n - (s.pd - s.pc) + (s.pd - s.pc) = a + n by omega] at right
        obtain ⟨moved₄, sorted₄⟩ := right
        generalize (if s.pd - s.pc > 1 then
          qsortCells cmp fuel c₃ (a + n - (s.pd - s.pc)) (s.pd - s.pc) else c₃) = c₄
          at moved₄ sorted₄
        have kept₃ : ∀ k, a + (s.pb - s.pa) ≤ k → c₃ k = gather a n s k :=
          fun k hk => moved₃.outside (Or.inr hk)
        have kept₄ : ∀ k, k < a + n - (s.pd - s.pc) → c₄ k = c₃ k :=
          fun k hk => moved₄.outside (Or.inl hk)
        refine ⟨(moved₂.trans (moved₃.mono (le_refl a) (by omega))).trans
          (moved₄.mono (by omega) (le_refl _)), ?_⟩
        refine SortedOn.of_blocks (p := key (swap c a (pivotIndex cmp c a n) a))
          (sorted₃.congr fun k _ h₂ => kept₄ k (by omega)) sorted₄ ?_ ?_ ?_
        · intro k h₁ h₂
          rw [kept₄ k (by omega)]
          exact moved₃.all (P := fun v => key v < key (swap c a (pivotIndex cmp c a n) a)) less
            k h₁ h₂
        · intro k h₁ h₂
          rw [kept₄ k h₂, kept₃ k h₁]
          exact equal k h₁ h₂
        · refine moved₄.all (P := fun v => key (swap c a (pivotIndex cmp c a n) a) < key v) ?_
          intro k h₁ h₂
          rw [kept₃ k (by omega)]
          exact greater k h₁ h₂

variable {l : List α}

/-- `qsort` permutes the array. -/
theorem qsort_perm [Inhabited α] (h : Compares cmp key S) (hS : ∀ x ∈ l, S x) :
    (qsort cmp l).Perm l := by
  obtain ⟨moved, _⟩ := qsortCells_spec h l.length (cellsOf l) 0 l.length (le_refl _)
    fun k _ h₂ => by
      rw [Nat.zero_add] at h₂
      rw [cellsOf_lt l h₂]
      exact hS _ (List.getElem_mem h₂)
  rw [Nat.zero_add] at moved
  simpa only [qsort, toList_cellsOf] using moved.toList_perm

/-- `qsort` sorts the array by the key its comparator compares. -/
theorem qsort_sorted [Inhabited α] (h : Compares cmp key S) (hS : ∀ x ∈ l, S x) :
    (qsort cmp l).Pairwise (fun x y => key x ≤ key y) := by
  obtain ⟨_, sorted⟩ := qsortCells_spec h l.length (cellsOf l) 0 l.length (le_refl _)
    fun k _ h₂ => by
      rw [Nat.zero_add] at h₂
      rw [cellsOf_lt l h₂]
      exact hS _ (List.getElem_mem h₂)
  rw [Nat.zero_add] at sorted
  exact sorted.pairwise_toList

end SandboxTEE.Stdlib
