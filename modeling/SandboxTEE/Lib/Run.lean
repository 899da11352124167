import Mathlib.Data.List.Induction

/-! # Runs of partial steps

A component that handles one call at a time is a step `σ → α → Option σ`; a run
is the fold of its calls, and `none` is an abort.  A run keeps what each step
keeps (`foldlM_invariant`), stays related to a machine that each step stays related to
(`foldlM_tracks`), and follows an abstract machine that each step follows
(`foldlM_simulates`).
-/

namespace SandboxTEE.Lib

variable {σ τ α : Type}

variable {ε : Type}

theorem bind_eq_ok {β : Type} {x : Except ε α} {f : α → Except ε β} {r : β}
    (run : x >>= f = .ok r) : ∃ a, x = .ok a ∧ f a = .ok r := by
  cases x with
  | error e => cases run
  | ok a => exact ⟨a, rfl, run⟩

variable {s s' : σ} {calls : List α} {step : σ → α → Option σ}

variable {a : α}

theorem foldlM_concat (run : (calls ++ [a]).foldlM step s = some s') :
    ∃ t, calls.foldlM step s = some t ∧ step t a = some s' := by
  rw [List.foldlM_append] at run
  obtain ⟨t, before, last⟩ := Option.bind_eq_some_iff.mp run
  rw [List.foldlM_cons] at last
  obtain ⟨u, stepped, rest⟩ := Option.bind_eq_some_iff.mp last
  cases rest
  exact ⟨t, before, stepped⟩

/-- A property each step keeps, under a condition on the call and the state it is made
    in, holds in every state of a run whose calls all meet the condition. -/
theorem foldlM_invariant {step : σ → α → Option σ} {Inv : σ → Prop} {Cond : σ → α → Prop}
    (keeps : ∀ s a s', Inv s → Cond s a → step s a = some s' → Inv s') :
    ∀ (calls : List α) (s s' : σ), Inv s →
      (∀ pre a, pre ++ [a] <+: calls → ∀ t, pre.foldlM step s = some t → Cond t a) →
      calls.foldlM step s = some s' → Inv s'
  | [], s, s', inv, _, run => by
    simp only [List.foldlM_nil, Option.pure_def, Option.some.injEq] at run
    exact run ▸ inv
  | a :: calls, s, s', inv, cond, run => by
    rw [List.foldlM_cons] at run
    obtain ⟨t, ht, run⟩ := Option.bind_eq_some_iff.mp run
    have here : Cond s a := cond [] a ⟨calls, rfl⟩ s rfl
    refine foldlM_invariant keeps calls t s' (keeps s a t inv here ht) ?_ run
    intro pre b hpre u hu
    refine cond (a :: pre) b ?_ u ?_
    · obtain ⟨rest, rfl⟩ := hpre
      exact ⟨rest, rfl⟩
    · rw [List.foldlM_cons]
      exact Option.bind_eq_some_iff.mpr ⟨t, ht, hu⟩

/-- The condition, checked along the run. -/
def meets (step : σ → α → Option σ) (Cond : σ → α → Prop) [∀ s a, Decidable (Cond s a)] :
    σ → List α → Bool
  | _, [] => true
  | s, a :: calls => decide (Cond s a) && (step s a).elim true fun t => meets step Cond t calls

variable {Cond : σ → α → Prop}

theorem cond_of_meets [∀ s a, Decidable (Cond s a)] (met : meets step Cond s calls = true) :
    ∀ pre a, pre ++ [a] <+: calls → ∀ t, pre.foldlM step s = some t → Cond t a := by
  induction calls generalizing s with
  | nil =>
    intro pre a within
    simp at within
  | cons b calls ih =>
    intro pre a within t run
    simp only [meets, Bool.and_eq_true, decide_eq_true_eq] at met
    cases pre with
    | nil =>
      cases run
      rw [(List.cons_prefix_cons.mp within).1]
      exact met.1
    | cons c pre =>
      obtain ⟨rfl, rest⟩ := List.cons_prefix_cons.mp within
      rw [List.foldlM_cons] at run
      obtain ⟨u, stepped, run⟩ := Option.bind_eq_some_iff.mp run
      rw [stepped] at met
      exact ih met.2 pre a rest t run

variable {f : τ → α → τ} {R : σ → τ → Prop}

/-- A relation to a total machine on the same calls, kept under a condition on each of them. -/
theorem foldlM_tracks (keeps : ∀ s t a s', R s t → Cond s a → step s a = some s' → R s' (f t a))
    {t : τ} (related : R s t)
    (cond : ∀ pre a, pre ++ [a] <+: calls → ∀ u, pre.foldlM step s = some u → Cond u a)
    (run : calls.foldlM step s = some s') : R s' (calls.foldl f t) := by
  induction calls using List.reverseRecOn generalizing s' with
  | nil =>
    cases run
    exact related
  | append_singleton calls a ih =>
    obtain ⟨u, before, last⟩ := foldlM_concat run
    rw [List.foldl_append]
    refine keeps u _ a s' (ih ?_ before) (cond calls a (List.prefix_refl _) u before) last
    exact fun pre b within => cond pre b (within.trans (List.prefix_append calls [a]))

theorem foldlM_concat_ok {step : σ → α → Except ε σ} (run : (calls ++ [a]).foldlM step s = .ok s') :
    ∃ t, calls.foldlM step s = .ok t ∧ step t a = .ok s' := by
  rw [List.foldlM_append] at run
  cases before : calls.foldlM step s with
  | error e =>
    rw [before] at run
    cases run
  | ok t =>
    rw [before] at run
    change (step t a >>= pure) = .ok s' at run
    rw [bind_pure] at run
    exact ⟨t, rfl, run⟩

/-- What each step keeps, for a step that says why it aborts. -/
theorem foldlM_keeps {step : σ → α → Except ε σ} {I : σ → Prop} {P : σ → α → Prop}
    (keeps : ∀ s a s', I s → P s a → step s a = .ok s' → I s') (inv : I s)
    (cond : ∀ pre a, pre ++ [a] <+: calls → ∀ t, pre.foldlM step s = .ok t → P t a)
    (run : calls.foldlM step s = .ok s') : I s' := by
  induction calls using List.reverseRecOn generalizing s' with
  | nil =>
    cases run
    exact inv
  | append_singleton calls a ih =>
    obtain ⟨t, before, stepped⟩ := foldlM_concat_ok run
    refine keeps t a s' (ih ?_ before) (cond calls a (List.prefix_refl _) t before) stepped
    exact fun pre b within => cond pre b (within.trans (List.prefix_append calls [a]))

/-- A loop over a list: the state is related to the part of the list that is done. -/
theorem foldlM_done {step : σ → α → Except ε σ} {R : List α → σ → Prop}
    (keeps : ∀ done s a s', R done s → step s a = .ok s' → R (done ++ [a]) s') (start : R [] s)
    (run : calls.foldlM step s = .ok s') : R calls s' := by
  induction calls using List.reverseRecOn generalizing s' with
  | nil =>
    cases run
    exact start
  | append_singleton calls a ih =>
    obtain ⟨t, before, stepped⟩ := foldlM_concat_ok run
    exact keeps calls t a s' (ih before) stepped

/-- Every call is admitted in the abstract state it is made in. -/
def Admitted (astep : τ → α → τ) (Ok : τ → α → Prop) : τ → List α → Prop
  | _, [] => True
  | t, a :: calls => Ok t a ∧ Admitted astep Ok (astep t a) calls

variable {astep : τ → α → τ} {Ok : τ → α → Prop}

theorem Admitted.of_prefix :
    ∀ {pre calls : List α} {t : τ}, Admitted astep Ok t calls → pre <+: calls →
      Admitted astep Ok t pre
  | [], _, _, _, _ => trivial
  | a :: pre, calls, t, h, hpre => by
    obtain ⟨rest, rfl⟩ := hpre
    exact ⟨h.1, Admitted.of_prefix h.2 ⟨rest, rfl⟩⟩

/-- A step that follows an abstract machine on every admitted call never aborts on a
    run of admitted calls, and ends in a state that stands for the abstract one. -/
theorem foldlM_simulates {abs : σ → τ} {Inv : σ → Prop}
    (follows : ∀ s a, Inv s → Ok (abs s) a →
      ∃ s', step s a = some s' ∧ Inv s' ∧ abs s' = astep (abs s) a) :
    ∀ (calls : List α) (s : σ), Inv s → Admitted astep Ok (abs s) calls →
      ∃ s', calls.foldlM step s = some s' ∧ Inv s' ∧ abs s' = calls.foldl astep (abs s)
  | [], s, inv, _ => ⟨s, rfl, inv, rfl⟩
  | a :: calls, s, inv, admitted => by
    obtain ⟨t, ht, inv', habs⟩ := follows s a inv admitted.1
    obtain ⟨s', run, inv'', habs'⟩ := foldlM_simulates follows calls t inv'
      (habs ▸ admitted.2)
    refine ⟨s', ?_, inv'', ?_⟩
    · rw [List.foldlM_cons]
      exact Option.bind_eq_some_iff.mpr ⟨t, ht, run⟩
    · rw [habs', habs, List.foldl_cons]

/-- The same for a step that says why it aborts, where a state stands for an abstract one
    by a relation. -/
theorem foldlM_refines {step : σ → α → Except ε σ} {P : τ → α → Prop}
    (follows : ∀ s t a, R s t → P t a → ∃ s', step s a = .ok s' ∧ R s' (f t a)) (calls : List α)
    (s : σ) (t : τ) (related : R s t) (admitted : Admitted f P t calls) :
    ∃ s', calls.foldlM step s = .ok s' ∧ R s' (calls.foldl f t) := by
  induction calls generalizing s t with
  | nil => exact ⟨s, rfl, related⟩
  | cons a calls ih =>
    obtain ⟨u, stepped, related'⟩ := follows s t a related admitted.1
    obtain ⟨s', run, final⟩ := ih u (f t a) related' admitted.2
    refine ⟨s', ?_, final⟩
    rw [List.foldlM_cons, stepped]
    exact run

end SandboxTEE.Lib
