import Mathlib.Data.List.Basic

/-! # Lexical path resolution

A path is a list of steps in a tree of names: stay, go up, or go down.  Walking up at
the top stays at the top.  Every walk has a normal form that does not depend on where
it starts: a number of levels to climb, and names to descend by afterwards
(`resolve_eq`).  Whether a walk from `root` ends at or below `root` can be read off
this normal form (`prefix_resolve_iff`).
-/

namespace SandboxTEE.Lib

variable {α : Type}

inductive Step (α : Type) where
  | stay
  | up
  | down (name : α)

/-- Where a step leads from the directory `cur`, given by its names from the top. -/
def Step.move (cur : List α) : Step α → List α
  | .stay => cur
  | .up => cur.dropLast
  | .down name => cur ++ [name]

def resolve (cur : List α) (steps : List (Step α)) : List α := steps.foldl Step.move cur

theorem resolve_append (cur : List α) (s t : List (Step α)) :
    resolve cur (s ++ t) = resolve (resolve cur s) t := List.foldl_append

theorem resolve_map_down (cur : List α) : ∀ names : List α,
    resolve cur (names.map Step.down) = cur ++ names
  | [] => (List.append_nil cur).symm
  | name :: names => by
    rw [List.map_cons, resolve, List.foldl_cons]
    change resolve (cur ++ [name]) (names.map Step.down) = _
    rw [resolve_map_down (cur ++ [name]) names, List.append_assoc, List.singleton_append]

/-- The normal form of a walk so far: levels climbed, then names descended by. -/
structure Relative (α : Type) where
  ups : Nat
  downs : List α

def Relative.step (r : Relative α) : Step α → Relative α
  | .stay => r
  | .up => if r.downs = [] then ⟨r.ups + 1, []⟩ else ⟨r.ups, r.downs.dropLast⟩
  | .down name => ⟨r.ups, r.downs ++ [name]⟩

def relative (steps : List (Step α)) : Relative α := steps.foldl Relative.step ⟨0, []⟩

/-- Where the normal form leads from `cur`. -/
def Relative.apply (cur : List α) (r : Relative α) : List α :=
  cur.take (cur.length - r.ups) ++ r.downs

theorem Relative.apply_step (cur : List α) (r : Relative α) (s : Step α) :
    (r.step s).apply cur = s.move (r.apply cur) := by
  cases s with
  | stay => rfl
  | up =>
    rw [Relative.step, Step.move]
    by_cases top : r.downs = []
    · rw [if_pos top, Relative.apply, Relative.apply, top, List.append_nil, List.append_nil,
        List.dropLast_eq_take, List.take_take, List.length_take]
      congr 1
      simp only
      omega
    · rw [if_neg top, Relative.apply, Relative.apply, List.dropLast_append_of_ne_nil top]
  | down name =>
    rw [Relative.step, Step.move, Relative.apply, Relative.apply, List.append_assoc]

theorem resolve_eq (cur : List α) (steps : List (Step α)) :
    resolve cur steps = (relative steps).apply cur := by
  suffices general : ∀ (steps : List (Step α)) (r : Relative α),
      resolve (r.apply cur) steps = (steps.foldl Relative.step r).apply cur by
    have := general steps ⟨0, []⟩
    rwa [Relative.apply, Nat.sub_zero, List.take_length, List.append_nil] at this
  intro steps
  induction steps with
  | nil => intro r; rfl
  | cons s steps ih =>
    intro r
    rw [List.foldl_cons, ← ih, Relative.apply_step]
    rfl

/-- A walk from `root` ends at or below `root` exactly when it descends again by every
    name of `root` it climbed past. -/
theorem prefix_resolve_iff (root : List α) (steps : List (Step α)) : root <+: resolve root steps ↔
      root.drop (root.length - (relative steps).ups) <+: (relative steps).downs := by
  rw [resolve_eq, Relative.apply]
  have split := List.take_append_drop (root.length - (relative steps).ups) root
  conv_lhs => arg 1; rw [← split]
  exact List.prefix_append_right_inj _

end SandboxTEE.Lib
