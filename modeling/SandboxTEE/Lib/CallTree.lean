import Mathlib.Data.List.Basic

/-! # Programs that call out

A component that calls services it does not contain is a tree: it is done with a
value, it aborts, or it makes a call and goes on with the reply.  One tree has as
many meanings as there are ways to serve its calls; `run` serves them from a state,
and `logged` keeps the list of what was served.
-/

namespace SandboxTEE.Lib

inductive CallTree (Call Reply α : Type) where
  | done (a : α)
  | abort
  | call (c : Call) (k : Reply → CallTree Call Reply α)

namespace CallTree

variable {Call Reply α β σ : Type}

def bind : CallTree Call Reply α → (α → CallTree Call Reply β) → CallTree Call Reply β
  | done a, f => f a
  | abort, _ => abort
  | call c k, f => call c fun r => (k r).bind f

instance : Monad (CallTree Call Reply) where
  pure := done
  bind := bind

/-- Make one call. -/
def perform (c : Call) : CallTree Call Reply Reply := call c done

/-- Serve the calls one after another; `none` is an abort. -/
def run (serve : σ → Call → Reply × σ) : CallTree Call Reply α → σ → Option α × σ
  | done a, s => (some a, s)
  | abort, s => (none, s)
  | call c k, s => (k (serve s c).1).run serve (serve s c).2

/-! ## Running -/

@[simp] theorem pure_bind_eq (a : α) (f : α → CallTree Call Reply β) : (pure a >>= f) = f a := rfl

@[simp] theorem perform_bind (c : Call) (f : Reply → CallTree Call Reply β) :
    (perform c >>= f) = call c f := rfl

theorem bind_assoc_eq {γ : Type} (t : CallTree Call Reply α) (f : α → CallTree Call Reply β)
    (g : β → CallTree Call Reply γ) : (t >>= f >>= g) = (t >>= fun a => f a >>= g) := by
  induction t with
  | done a => rfl
  | abort => rfl
  | call c k ih => exact congrArg (CallTree.call c) (funext ih)

variable {serve : σ → Call → Reply × σ}

@[simp] theorem run_pure (a : α) (s : σ) :
    (pure a : CallTree Call Reply α).run serve s = (some a, s) := rfl

@[simp] theorem run_abort (s : σ) :
    (CallTree.abort : CallTree Call Reply α).run serve s = (none, s) := rfl

@[simp] theorem run_call (c : Call) (k : Reply → CallTree Call Reply α) (s : σ) :
    (call c k).run serve s = (k (serve s c).1).run serve (serve s c).2 := rfl

/-- A sequence runs its first part, and then the second from where the first ended. -/
theorem run_bind (t : CallTree Call Reply α) (f : α → CallTree Call Reply β) (s : σ) :
    (t >>= f).run serve s = match t.run serve s with
      | (some a, s') => (f a).run serve s'
      | (none, s') => (none, s') := by
  induction t generalizing s with
  | done a => rfl
  | abort => rfl
  | call c k ih => exact ih _ _

variable {t : CallTree Call Reply α}

variable {f : α → CallTree Call Reply β} {s : σ}

theorem run_bind_of_some {s' : σ} {a : α} (h : t.run serve s = (some a, s')) :
    (t >>= f).run serve s = (f a).run serve s' := by
  rw [run_bind, h]

/-! ## Logs -/

/-- Serve as `serve` does, and keep the calls with their replies. -/
def logged (serve : σ → Call → Reply × σ) :
    σ × List (Call × Reply) → Call → Reply × (σ × List (Call × Reply)) :=
  fun s c => ((serve s.1 c).1, ((serve s.1 c).2, s.2 ++ [(c, (serve s.1 c).1)]))

/-- Whatever the replies, the calls of the tree satisfy `P`. -/
def AllCalls (P : Call → Prop) : CallTree Call Reply α → Prop
  | done _ => True
  | abort => True
  | call c k => P c ∧ ∀ r, AllCalls P (k r)

theorem AllCalls.pure (P : Call → Prop) (a : α) :
    AllCalls P (pure a : CallTree Call Reply α) := trivial

variable {P : Call → Prop}

theorem AllCalls.perform {c : Call} (h : P c) :
    AllCalls P (perform c : CallTree Call Reply Reply) := ⟨h, fun _ => trivial⟩

theorem AllCalls.bind (ht : AllCalls P t) (hf : ∀ a, AllCalls P (f a)) : AllCalls P (t >>= f) := by
  induction t with
  | done a => exact hf a
  | abort => trivial
  | call c k ih => exact ⟨ht.1, fun r => ih r (ht.2 r)⟩

theorem AllCalls.ite {p : Prop} [Decidable p] {u : CallTree Call Reply α} (ht : AllCalls P t)
    (hu : AllCalls P u) : AllCalls P (if p then t else u) := by
  split
  · exact ht
  · exact hu

/-- What a run adds to the log are calls of the tree. -/
theorem AllCalls.run_logged (h : AllCalls P t) : ∀ (s : σ) (log : List (Call × Reply)), ∃ new,
      (t.run (logged serve) (s, log)).2.2 = log ++ new ∧ ∀ e ∈ new, P e.1 := by
  induction t with
  | done a => exact fun s log => ⟨[], (List.append_nil log).symm, fun _ mem => nomatch mem⟩
  | abort => exact fun s log => ⟨[], (List.append_nil log).symm, fun _ mem => nomatch mem⟩
  | call c k ih =>
    intro s log
    obtain ⟨new, eq, all⟩ := ih _ (h.2 (serve s c).1) (serve s c).2 (log ++ [(c, (serve s c).1)])
    refine ⟨(c, (serve s c).1) :: new, ?_, List.forall_mem_cons.mpr ⟨h.1, all⟩⟩
    rw [run_call]
    exact eq.trans (List.append_assoc log _ new)

/-- Two ways to serve that answer the calls of a tree alike, as long as their states are related,
    cannot be told apart by it. -/
theorem AllCalls.run_related {τ : Type} {R : σ → τ → Prop} {serve' : τ → Call → Reply × τ}
    (step : ∀ c s s', P c → R s s' →
      (serve s c).1 = (serve' s' c).1 ∧ R (serve s c).2 (serve' s' c).2) (h : AllCalls P t) {s' : τ}
    (related : R s s') :
    (t.run serve s).1 = (t.run serve' s').1 ∧ R (t.run serve s).2 (t.run serve' s').2 := by
  induction t generalizing s s' with
  | done a => exact ⟨rfl, related⟩
  | abort => exact ⟨rfl, related⟩
  | call c k ih =>
    obtain ⟨same, related'⟩ := step c s s' h.1 related
    rw [run_call, run_call, same]
    exact ih _ (h.2 _) related'

theorem prefix_run_logged (t : CallTree Call Reply α) : ∀ s : σ × List (Call × Reply),
    s.2 <+: (t.run (logged serve) s).2.2 := by
  induction t with
  | done a => exact fun s => List.prefix_rfl
  | abort => exact fun s => List.prefix_rfl
  | call c k ih =>
    intro s
    have here : s.2 <+: (logged serve s c).2.2 := List.prefix_append s.2 _
    exact here.trans (ih _ _)

end CallTree

end SandboxTEE.Lib
