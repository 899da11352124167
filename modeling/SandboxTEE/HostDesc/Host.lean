import SandboxTEE.HostDesc.Model

/-! # The host behind the boundary (`xcall/ocall_file_u.c`, `ocall_dir_u.c`)

A host call succeeds with a value, or fails and leaves the reason in the `errno` of the host
process.  The untrusted wrappers hand the return value back as an `int`; the `errno` stays
where it is.
-/

namespace SandboxTEE.HostDesc

open SandboxTEE.Lib (CallTree)
open SandboxTEE.Lib.CallTree (perform run_bind_of_some run_bind)
open SandboxTEE.Stdlib

inductive HostResult where
  | ok (value : Nat) (data : List Byte)
  | fail (errno : Nat)

/-- What `sgx_ocall` returns.  The mapping calls report zero, the unmapping one always. -/
def untrustedReply : HostCall → HostResult → Reply
  | .unmapUntrusted _, _ => { ret := 0 }
  | _, .ok value data => { ret := cInt value, data := data }
  | _, .fail _ => { ret := -1 }

/-- The values a call of POSIX returns. -/
def HostResult.Possible : HostCall → HostResult → Prop
  | _, .fail errno => 0 < errno
  | .open .., .ok value _ => value < 2 ^ 31
  | .read _ count, .ok value _ => value ≤ count ∧ value < 2 ^ 31
  | .write _ buf, .ok value _ => value ≤ buf.length ∧ value < 2 ^ 31
  | .pread64 _ count _, .ok value _ => value ≤ count ∧ value < 2 ^ 31
  | .pwrite64 _ buf _, .ok value _ => value ≤ buf.length ∧ value < 2 ^ 31
  | .lseek64 .., .ok value _ => value < 2 ^ 63
  | .fcntl .., .ok value _ => value < 2 ^ 31
  | _, .ok value _ => value = 0

variable {σ : Type}

/-- What was served, in order. -/
inductive Served where
  | host (c : HostCall) (r : HostResult)
  | library (c : Call) (r : Reply)

/-- The host serves its calls, the rest of the enclave serves the others. -/
def serveCalls (host : σ → HostCall → HostResult × σ) (library : σ → Call → Reply × σ) :
    σ × List Served → Call → Reply × (σ × List Served)
  | (s, served), .host c =>
    (untrustedReply c (host s c).1, ((host s c).2, served ++ [.host c (host s c).1]))
  | (s, served), c => ((library s c).1, ((library s c).2, served ++ [.library c (library s c).1]))

variable {host : σ → HostCall → HostResult × σ} {library : σ → Call → Reply × σ} {α β : Type}

/-- From state `s` the tree ends with `result` in state `s'`, and this is served meanwhile. -/
def Runs (host : σ → HostCall → HostResult × σ) (library : σ → Call → Reply × σ)
    (t : HostTree α) (s : σ) (result : Option α) (served : List Served) (s' : σ) : Prop :=
  ∀ before, t.run (serveCalls host library) (s, before) = (result, (s', before ++ served))

theorem Runs.pure (a : α) (s : σ) : Runs host library (pure a) s (some a) [] s := fun before => by
  rw [CallTree.run_pure, List.append_nil]

theorem Runs.abort (s : σ) :
    Runs host library (CallTree.abort : HostTree α) s none [] s := fun before => by
  rw [CallTree.run_abort, List.append_nil]

theorem Runs.sgxOcall (c : HostCall) (s : σ) :
    Runs host library (sgxOcall c) s (some (untrustedReply c (host s c).1))
      [.host c (host s c).1] (host s c).2 := fun _ => rfl

theorem Runs.libraryCall {c : Call} (notHost : ∀ h, c ≠ .host h) (s : σ) :
    Runs host library (perform c) s (some (library s c).1) [.library c (library s c).1]
      (library s c).2 := fun before => by
  cases c with
  | host h => exact absurd rfl (notHost h)
  | _ => rfl

variable {s s' s'' : σ} {served served' : List Served} {t : HostTree α} {f : α → HostTree β}

variable {result : Option β} {a : α}

theorem Runs.bind (first : Runs host library t s (some a) served s')
    (second : Runs host library (f a) s' result served' s'') :
    Runs host library (t >>= f) s result (served ++ served') s'' := fun before => by
  rw [run_bind_of_some (first before), second, List.append_assoc]

/-- The second part may first be rewritten to the branch that is taken. -/
theorem Runs.bind_eq {u : HostTree β} (first : Runs host library t s (some a) served s')
    (eq : f a = u) (second : Runs host library u s' result served' s'') :
    Runs host library (t >>= f) s result (served ++ served') s'' :=
  first.bind (eq ▸ second)

theorem Runs.bind_abort (first : Runs host library t s none served s') :
    Runs host library (t >>= f) s none served s' := fun before => by
  rw [run_bind, first before]

theorem exists_runs (host : σ → HostCall → HostResult × σ) (library : σ → Call → Reply × σ)
    (t : HostTree α) (s : σ) : ∃ result served s', Runs host library t s result served s' := by
  induction t generalizing s with
  | done a => exact ⟨_, _, _, Runs.pure a s⟩
  | abort => exact ⟨_, _, _, Runs.abort s⟩
  | call c k ih =>
    cases c with
    | host c =>
      obtain ⟨result, served, s', runs⟩ := ih (untrustedReply c (host s c).1) (host s c).2
      exact ⟨_, _, _, (Runs.sgxOcall c s).bind runs⟩
    | _ =>
      obtain ⟨result, served, s', runs⟩ := ih (library s _).1 (library s _).2
      exact ⟨_, _, _, (Runs.libraryCall (by simp) s).bind runs⟩

theorem Runs.unique {result result' : Option α} (h : Runs host library t s result served s')
    (h' : Runs host library t s result' served' s'') :
    result = result' ∧ served = served' ∧ s' = s'' := by
  have := (h []).symm.trans (h' [])
  simpa [and_comm, and_assoc] using this

end SandboxTEE.HostDesc
