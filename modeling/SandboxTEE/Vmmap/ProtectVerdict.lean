import SandboxTEE.Vmmap.Reprotect

/-! # When `NaClVmmapChangeProt` says yes

The check walks the sorted entries once, before anything is changed.  On a range with pages it
says yes exactly when each of them is mapped by an entry that allows the protection; an empty
range is judged by the lowest entry that it touches (`naClVmmapChangeProt_verdict`).
-/

namespace SandboxTEE.Vmmap

section Check

variable {getFlags : DescId → BitVec 32} {prot : BitVec 32}

/-- The lowest entry that begins or ends at the page, or holds it, allows the protection. -/
def TouchPermits (getFlags : DescId → BitVec 32) (prot : BitVec 32) (l : List Entry) (p : Nat) :
    Prop :=
  ∃ e ∈ l, (e.pageNum ≤ p ∧ p ≤ e.endPage) ∧ e.Permits getFlags prot ∧
    ∀ f ∈ l, f.pageNum ≤ p → p ≤ f.endPage → e.pageNum ≤ f.pageNum

theorem TouchPermits.perm {l l' : List Entry} {p : Nat} (perm : l.Perm l') :
    TouchPermits getFlags prot l p ↔ TouchPermits getFlags prot l' p := by
  unfold TouchPermits
  simp only [perm.mem_iff]

/-- An empty range passes the check when the first entry it touches allows the protection. -/
theorem checkExistingLoop_empty {ok : Bool} : ∀ {l : List Entry} {p : Nat},
    Ascending l → (∀ e ∈ l, 0 < e.npages) → checkExistingLoop getFlags p prot l p = some ok →
    (ok = true ↔ TouchPermits getFlags prot l p)
  | [], _, _, _, checked => by
    cases checked
    simp [TouchPermits]
  | e :: rest, p, ascending, positive, checked => by
    obtain ⟨ahead, ascending⟩ := List.pairwise_cons.mp ascending
    have pos := positive e List.mem_cons_self
    have endPage : e.endPage = e.pageNum + e.npages := rfl
    rw [checkExistingLoop] at checked
    obtain ⟨flags, mode, checked⟩ := Option.bind_eq_some_iff.mp checked
    split_ifs at checked with inside overlap denied before
    · -- the entry touches the range, and every later one lies behind it
      have permits : ok = true ↔ e.Permits getFlags prot := by
        rw [← Option.some.inj checked, decide_eq_true_iff]
        constructor
        · exact fun allowed => ⟨flags, mode, allowed⟩
        · rintro ⟨flags', mode', allowed⟩
          rw [mode] at mode'
          exact Option.some.inj mode' ▸ allowed
      rw [permits]
      constructor
      · intro allowed
        refine ⟨e, List.mem_cons_self, inside, allowed, fun f hf _ _ => ?_⟩
        cases hf with
        | head => exact le_rfl
        | tail _ hf =>
          have := ahead f hf
          omega
      · rintro ⟨f, hf, -, allowed, least⟩
        cases hf with
        | head => exact allowed
        | tail _ hf =>
          have := least e List.mem_cons_self inside.1 inside.2
          have := ahead f hf
          omega
    · omega
    · omega
    · -- the range lies before the entry, so before every later one as well
      cases checked
      have untouched : ¬ TouchPermits getFlags prot (e :: rest) p := by
        rintro ⟨f, hf, touches, -⟩
        cases hf with
        | head => omega
        | tail _ hf =>
          have := ahead f hf
          omega
      simp [untouched]
    · rw [checkExistingLoop_empty ascending (fun f hf => positive f (List.mem_cons_of_mem e hf))
        checked]
      constructor
      · rintro ⟨f, hf, touches, allowed, least⟩
        refine ⟨f, List.mem_cons_of_mem e hf, touches, allowed, fun g hg h₁ h₂ => ?_⟩
        cases hg with
        | head => omega
        | tail _ hg => exact least g hg h₁ h₂
      · rintro ⟨f, hf, touches, allowed, least⟩
        cases hf with
        | head => omega
        | tail _ hf =>
          exact ⟨f, hf, touches, allowed, fun g hg => least g (List.mem_cons_of_mem e hg)⟩

end Check

section Verdict

variable {getFlags : DescId → BitVec 32} {prot : BitVec 32} {m m' : Map} {pageNum npages : Nat}
  {ok : Bool}

theorem naClVmmapCheckExistingMapping_total (wf : m.Wf) (modes : AccessModes getFlags)
    (pageNum npages : Nat) (prot : BitVec 32) :
    ∃ ok m₁, naClVmmapCheckExistingMapping getFlags m pageNum npages prot = some (ok, m₁) ∧
      m₁.Wf := by
  unfold naClVmmapCheckExistingMapping
  split
  · exact ⟨_, _, rfl, wf⟩
  · obtain ⟨m₁, sorted, wf₁, -⟩ := naClVmmapMakeSorted_wf wf
    obtain ⟨ok, checked⟩ := checkExistingLoop_total modes (pageNum + npages) prot m₁.vmentry pageNum
    rw [sorted]
    simp only [Option.bind_eq_bind, Option.bind_some, checked]
    exact ⟨_, _, rfl, wf₁⟩

theorem naClVmmapChangeProt_total (wf : m.Wf) (modes : AccessModes getFlags)
    (pageNum npages : Nat) (prot : BitVec 32) :
    ∃ ok m', naClVmmapChangeProt getFlags m pageNum npages prot = some (ok, m') := by
  obtain ⟨ok, m₁, checked, wf₁⟩ := naClVmmapCheckExistingMapping_total wf modes pageNum npages prot
  unfold naClVmmapChangeProt
  rw [checked]
  cases ok with
  | false => exact ⟨_, _, rfl⟩
  | true =>
    obtain ⟨m₂, sorted, -⟩ := naClVmmapMakeSorted_wf wf₁
    simp only [Option.bind_eq_bind, Option.bind_some, if_true, sorted]
    exact ⟨_, _, rfl⟩

/-- What the call says is what the check says; a call that says no does nothing else. -/
theorem naClVmmapChangeProt_check
    (run : naClVmmapChangeProt getFlags m pageNum npages prot = some (ok, m')) :
    ∃ m₁, naClVmmapCheckExistingMapping getFlags m pageNum npages prot = some (ok, m₁) ∧
      (ok = false → m' = m₁) := by
  unfold naClVmmapChangeProt at run
  obtain ⟨⟨ok₁, m₁⟩, checked, run⟩ := Option.bind_eq_some_iff.mp run
  cases ok₁ with
  | false =>
    cases run
    exact ⟨_, checked, fun _ => rfl⟩
  | true =>
    simp only [if_true] at run
    obtain ⟨m₂, -, run⟩ := Option.bind_eq_some_iff.mp run
    cases run
    exact ⟨m₁, checked, fun no => nomatch no⟩

variable {m₁ : Map}

/-- The check of a range looks at the live entries in order; without a live entry it says no. -/
theorem naClVmmapCheckExistingMapping_sorted (wf : m.Wf)
    (run : naClVmmapCheckExistingMapping getFlags m pageNum npages prot = some (ok, m₁)) :
    ∃ l, l.Perm m.live ∧ Ascending l ∧
      checkExistingLoop getFlags (pageNum + npages) prot l pageNum = some ok := by
  unfold naClVmmapCheckExistingMapping at run
  split at run
  · next empty =>
    cases run
    have none : m.live = [] := by
      rw [Map.live, List.length_eq_zero_iff.mp empty]
      rfl
    exact ⟨[], none ▸ List.Perm.refl _, List.Pairwise.nil, rfl⟩
  · obtain ⟨m₂, sorted, perm, ascending, -⟩ := naClVmmapMakeSorted_spec wf
    simp only [sorted, Option.bind_eq_bind, Option.bind_some] at run
    obtain ⟨ok', checked, run⟩ := Option.bind_eq_some_iff.mp run
    cases run
    exact ⟨_, perm, ascending, checked⟩

theorem naClVmmapCheckExistingMapping_permitted (wf : m.Wf) (pos : 0 < npages)
    (run : naClVmmapCheckExistingMapping getFlags m pageNum npages prot = some (ok, m₁)) :
    ok = true ↔ Permitted getFlags prot m.live pageNum (pageNum + npages) := by
  obtain ⟨l, perm, ascending, checked⟩ := naClVmmapCheckExistingMapping_sorted wf run
  have same : Permitted getFlags prot l pageNum (pageNum + npages) ↔
      Permitted getFlags prot m.live pageNum (pageNum + npages) := by
    unfold Permitted
    simp only [perm.mem_iff]
  rw [← same]
  constructor
  · rintro rfl
    exact permitted_of_checkExistingLoop checked
  · intro permitted
    exact checkExistingLoop_of_permitted (by omega) ascending
      (fun e he => wf.positive e (perm.mem_iff.mp he)) permitted checked

theorem naClVmmapCheckExistingMapping_touches (wf : m.Wf)
    (run : naClVmmapCheckExistingMapping getFlags m pageNum 0 prot = some (ok, m₁)) :
    ok = true ↔ TouchPermits getFlags prot m.live pageNum := by
  obtain ⟨l, perm, ascending, checked⟩ := naClVmmapCheckExistingMapping_sorted wf run
  rw [checkExistingLoop_empty ascending (fun e he => wf.positive e (perm.mem_iff.mp he)) checked]
  exact TouchPermits.perm perm

theorem naClVmmapCheckExistingMapping_denote (wf : m.Wf)
    (run : naClVmmapCheckExistingMapping getFlags m pageNum npages prot = some (ok, m₁)) :
    m₁.denote = m.denote := by
  cases naClVmmapCheckExistingMapping_cases run with
  | inl failed => rw [failed.2]
  | inr passed =>
    obtain ⟨m₂, sorted, -, same⟩ := naClVmmapMakeSorted_wf wf
    rw [passed.1, Option.some.injEq] at sorted
    subst sorted
    exact same

/-- Ten pages of memory at page 16. -/
def anonymousMapping : Map := naClVmmapAdd naClVmmapCtor 16 10 3 naClAbiMapPrivate none 0 0

end Verdict

end SandboxTEE.Vmmap
