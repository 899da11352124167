import Mathlib.Data.List.Basic

/-! # Frames of a stack allocator

Frames are opened and closed like brackets; what is taken belongs to the innermost open frame
and is given back when this frame is closed.  A trace is in order when everything that is taken
is fit for use and apart from all that is in use at that moment.
-/

namespace SandboxTEE.Lib

/-- What an allocator does to its frames. -/
inductive FrameStep (α : Type) where
  | enter
  | take (a : α)
  | leave

namespace FrameStep

variable {α : Type} (ok : α → Prop) (apart : α → α → Prop)
  [DecidablePred ok] [DecidableRel apart]

/-- The open frames behind a step, the innermost first. -/
def apply (frames : List (List α)) : FrameStep α → Option (List (List α))
  | enter => some ([] :: frames)
  | take a =>
    match frames with
    | [] => none
    | frame :: outer =>
      if ok a ∧ ∀ g ∈ frame :: outer, ∀ b ∈ g, apart a b then some ((a :: frame) :: outer)
      else none
  | leave =>
    match frames with
    | [] => none
    | _ :: outer => some outer

/-- Nothing when the trace is out of order. -/
def replay (frames : List (List α)) (steps : List (FrameStep α)) : Option (List (List α)) :=
  steps.foldlM (apply ok apart) frames

theorem replay_take {a : α} {frame : List α} {outer : List (List α)}
    (steps : List (FrameStep α)) (fit : ok a) (free : ∀ g ∈ frame :: outer, ∀ b ∈ g, apart a b) :
    replay ok apart (frame :: outer) (take a :: steps) =
      replay ok apart ((a :: frame) :: outer) steps := by
  rw [replay, List.foldlM_cons, apply, if_pos ⟨fit, free⟩]
  rfl

theorem replay_append {frames frames' : List (List α)} {first : List (FrameStep α)}
    (second : List (FrameStep α)) (h : replay ok apart frames first = some frames') :
    replay ok apart frames (first ++ second) = replay ok apart frames' second := by
  rw [replay, List.foldlM_append, show List.foldlM _ _ _ = _ from h]
  rfl

end FrameStep

end SandboxTEE.Lib
