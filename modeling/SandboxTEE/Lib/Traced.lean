import Mathlib.Data.List.Basic

/-! # Programs that leave a trace

A program changes a state and leaves a list of events; in a sequence the events of the
second part stand behind those of the first.
-/

namespace SandboxTEE.Lib

/-- A result, the state behind it and the events on the way. -/
structure Outcome (σ ε α : Type) where
  result : α
  state : σ
  events : List ε

def Traced (σ ε α : Type) := σ → Outcome σ ε α

namespace Traced

variable {σ ε α β : Type}

instance : Monad (Traced σ ε) where
  pure a := fun s => { result := a, state := s, events := [] }
  bind m f := fun s =>
    let first := m s
    let second := f first.result first.state
    { second with events := first.events ++ second.events }

def emit (e : ε) : Traced σ ε Unit := fun s => { result := (), state := s, events := [e] }

def run (m : Traced σ ε α) (s : σ) : Outcome σ ε α := m s

theorem run_pure (a : α) (s : σ) :
    (pure a : Traced σ ε α).run s = { result := a, state := s, events := [] } := rfl

theorem run_emit_bind (e : ε) (f : Unit → Traced σ ε β) (s : σ) : (emit e >>= f).run s =
      { (f ()).run s with events := e :: ((f ()).run s).events } := rfl

variable {s' s : σ} {f : α → Traced σ ε β} {a : α} {m : Traced σ ε α}

theorem run_bind_of {es : List ε} (h : m.run s = { result := a, state := s', events := es }) :
    (m >>= f).run s =
      { (f a).run s' with events := es ++ ((f a).run s').events } := by
  have : (m >>= f).run s =
      { (f (m.run s).result).run (m.run s).state with
        events := (m.run s).events ++ ((f (m.run s).result).run (m.run s).state).events } := rfl
  rw [this, h]

theorem run_bind_of_nil (h : m.run s = { result := a, state := s', events := [] }) :
    (m >>= f).run s = (f a).run s' := run_bind_of h

theorem run_bind (m : Traced σ ε α) (f : α → Traced σ ε β) (s : σ) :
    (m >>= f).run s =
      { (f (m.run s).result).run (m.run s).state with
        events := (m.run s).events ++ ((f (m.run s).result).run (m.run s).state).events } := rfl

instance : LawfulMonad (Traced σ ε) := by
  refine LawfulMonad.mk' _ (fun m => ?_) (fun _ _ => rfl) (fun m f g => ?_)
  · funext s
    change Outcome.mk _ _ (_ ++ []) = _
    rw [List.append_nil]
    rfl
  · funext s
    change Outcome.mk _ _ ((_ ++ _) ++ _) = Outcome.mk _ _ (_ ++ (_ ++ _))
    rw [List.append_assoc]
    rfl

/-! ## A coarser trace -/

/-- The same program with another account of its events. -/
def mapEvents {ε' : Type} (g : ε → List ε') (m : Traced σ ε α) : Traced σ ε' α := fun s =>
  { result := (m s).result, state := (m s).state, events := (m s).events.flatMap g }

variable {ε' : Type} (g : ε → List ε')

@[simp] theorem mapEvents_pure (a : α) : (pure a : Traced σ ε α).mapEvents g = pure a := rfl

@[simp] theorem mapEvents_bind (m : Traced σ ε α) (f : α → Traced σ ε β) :
    (m >>= f).mapEvents g = m.mapEvents g >>= fun a => (f a).mapEvents g := by
  funext s
  change Outcome.mk _ _ (List.flatMap g (_ ++ _)) = Outcome.mk _ _ _
  rw [List.flatMap_append]
  rfl

@[simp] theorem mapEvents_map (f : α → β) (m : Traced σ ε α) :
    (f <$> m).mapEvents g = f <$> m.mapEvents g := by
  rw [map_eq_pure_bind, map_eq_pure_bind, mapEvents_bind]
  rfl

theorem result_mapEvents (m : Traced σ ε α) (s : σ) :
    ((m.mapEvents g).run s).result = (m.run s).result := rfl

variable {e : ε}

theorem mapEvents_emit {e' : ε'} (h : g e = [e']) :
    (emit e : Traced σ ε Unit).mapEvents g = emit e' := by
  funext s
  change Outcome.mk _ _ (List.flatMap g [e]) = _
  rw [List.flatMap_singleton, h]
  rfl

theorem mapEvents_emit_nil (h : g e = []) : (emit e : Traced σ ε Unit).mapEvents g = pure () := by
  funext s
  change Outcome.mk _ _ (List.flatMap g [e]) = _
  rw [List.flatMap_singleton, h]
  rfl

@[simp] theorem mapEvents_ite (p : Prop) [Decidable p] (m m' : Traced σ ε α) :
    (if p then m else m').mapEvents g = if p then m.mapEvents g else m'.mapEvents g := by
  split <;> rfl

end Traced

end SandboxTEE.Lib
