import SandboxTEE.HostDesc.Model

/-! # The access gate of opens

Before a host file is opened, the monitor is asked about its path, and the status in the
reply decides.  Request and reply are comma-separated strings in buffers of 512 bytes, and
the status is found by counting the non-empty fields: a path with a comma, or a long one,
puts something else in its place (`accessGate_iff`).
-/

namespace SandboxTEE.HostDesc

open SandboxTEE.Lib (CallTree tokens tokens_nil tokens_append_sep tokens_of_not_mem)
open SandboxTEE.Lib.CallTree (logged run_bind_of_some)
open SandboxTEE.Runtime
open SandboxTEE.Stdlib

/-! ## Parsing the reply -/

theorem cstr_of_not_mem {s : List Byte} (h : (0 : Byte) ∉ s) : cstr s = s :=
  List.takeWhile_eq_self_iff.mpr fun b mem => by
    simpa using fun zero : b = 0 => h (zero ▸ mem)

/-- Behind the message type, the second token is the status. -/
theorem replyStatus_eq {data rest : List Byte}
    (string : cstr (data.take 511) = statusMsg ++ comma :: rest) :
    replyStatus data = pure (tokens comma rest)[1]? := by
  rw [replyStatus, string, strtokR_append (by decide) (by decide)]
  have first := @strtokR_tokens comma rest
  have second := @strtokR_tokens comma (strtokR comma rest).2
  simp only [if_true, second.1, first.2, List.head?_tail]

/-- The reply that echoes the queried path and carries a status. -/
def monitorReply (path status : List Byte) : List Byte := statusQuery path ++ comma :: status

variable {path status : List Byte}

/-- What is left of the status when the reply is cut off at 511 bytes. -/
theorem replyStatus_monitorReply (pathNul : (0 : Byte) ∉ path) (statusNul : (0 : Byte) ∉ status)
    (short : path.length ≤ 509) : replyStatus (monitorReply path status) =
      pure (tokens comma ((path ++ comma :: status).take 509))[1]? := by
  have query : statusQuery path = statusMsg ++ comma :: path := by
    rw [statusQuery, List.take_of_length_le]
    simp only [statusMsg, List.length_append, List.length_cons, List.length_nil]
    omega
  apply replyStatus_eq
  rw [monitorReply, query]
  have whole : (statusMsg ++ comma :: path ++ comma :: status).take 511 =
      statusMsg ++ comma :: (path ++ comma :: status).take 509 := rfl
  rw [whole]
  apply cstr_of_not_mem
  intro mem
  rcases List.mem_append.mp mem with mem | mem
  · exact absurd mem (by decide)
  rcases List.mem_cons.mp mem with zero | mem
  · exact absurd zero (by decide)
  rcases List.mem_append.mp (List.mem_of_mem_take mem) with mem | mem
  · exact pathNul mem
  rcases List.mem_cons.mp mem with zero | mem
  · exact absurd zero (by decide)
  · exact statusNul mem

/-- A field that survives the cut is a token unless it is empty. -/
theorem tokens_take_of_not_mem (noComma : comma ∉ status) (k : Nat) :
    tokens comma (status.take k) = if status.take k = [] then [] else [status.take k] := by
  split
  · next empty => rw [empty, tokens_nil]
  · next ne => exact tokens_of_not_mem (fun mem => noComma (List.mem_of_mem_take mem)) ne

/-- The second token of the cut reply is the status. -/
theorem second_token_eq_status_iff (noComma : comma ∉ status) (short : path.length ≤ 509) :
    (tokens comma ((path ++ comma :: status).take 509))[1]? = some status ↔
      ((tokens comma path).length = 1 ∧ status ≠ [] ∧ path.length + status.length ≤ 508) ∨
        (tokens comma path)[1]? = some status := by
  rcases Nat.lt_or_ge path.length 509 with fits | long
  · obtain ⟨k, hk⟩ : ∃ k, 509 - path.length = k + 1 := ⟨508 - path.length, by omega⟩
    have cut : (path ++ comma :: status).take 509 = path ++ comma :: status.take k := by
      rw [List.take_append, List.take_of_length_le short, hk, List.take_succ_cons]
    rw [cut, tokens_append_sep, tokens_take_of_not_mem noComma]
    rcases hp : tokens comma path with _ | ⟨first, _ | ⟨second, more⟩⟩
    · -- the status is the first token, if it is one at all
      split <;> simp
    · have whole : status.take k = status ↔ status.length ≤ k := List.take_eq_self_iff status
      split
      · next empty =>
        have short : ¬ (status ≠ [] ∧ path.length + status.length ≤ 508) := by
          rintro ⟨ne, le⟩
          exact ne (by rw [← whole.mpr (by omega), empty])
        simpa using short
      · next ne =>
        simp only [List.cons_append, List.nil_append, List.getElem?_cons_succ,
          List.getElem?_cons_zero, Option.some.injEq, List.length_cons, List.length_nil,
          Nat.zero_add, true_and, List.getElem?_nil, reduceCtorEq, or_false]
        constructor
        · intro eq
          have := whole.mp eq
          exact ⟨eq ▸ ne, by omega⟩
        · rintro ⟨_, le⟩
          exact whole.mpr (by omega)
    · simp
  · -- the comma behind the path is already cut off
    have cut : (path ++ comma :: status).take 509 = path := by
      rw [List.take_append, List.take_of_length_le short, show 509 - path.length = 0 by omega,
        List.take_zero, List.append_nil]
    rw [cut]
    constructor
    · exact Or.inr
    · rintro (⟨_, _, le⟩ | second)
      · omega
      · exact second

/-! ## Opening the host file -/

/-- The flags that `NaClHostDescOpen` lets through. -/
def FlagsAllowed (flags : Nat) : Prop :=
  flags &&& naClAllowedOpenFlags = flags ∧ flags &&& accMode ≠ accMode

variable {σ : Type}

/-- The calls that a tree makes, with their replies. -/
def callsOf {α : Type} (serve : σ → Call → Reply × σ) (s : σ) (t : HostTree α) :
    List (Call × Reply) :=
  (t.run (logged serve) (s, [])).2.2

/-- The host is called to open `path`. -/
def OpensHostFile (calls : List (Call × Reply)) (path : List Byte) : Prop :=
  ∃ flags mode reply, (.host (.open path flags mode), reply) ∈ calls

/-- Behind the gate, the clock and the flags decide. -/
theorem openAllowed_opens_iff (serve : σ → Call → Reply × σ) (s : σ) (log : List (Call × Reply))
    (errno : Nat) (d : NaClHostDesc) (path : List Byte) (flags mode : Nat)
    (fresh : ¬ OpensHostFile log path) :
    OpensHostFile ((openAllowed errno d path flags mode).run (logged serve) (s, log)).2.2 path ↔
      (serve s .naClGetTimeOfDay).1.ret = 0 ∧ FlagsAllowed flags := by
  rw [openAllowed]
  by_cases clock : (serve s .naClGetTimeOfDay).1.ret = 0
  · by_cases allowed : flags &&& naClAllowedOpenFlags = flags
    · by_cases access : flags &&& accMode = accMode
      · simp [logged, clock, allowed, access, FlagsAllowed, OpensHostFile]
        simpa [OpensHostFile] using fresh
      · simp only [CallTree.perform_bind, CallTree.run_call, logged, clock, allowed, access,
          FlagsAllowed, ocallOpen, sgxOcall, ne_eq, not_true_eq_false, not_false_eq_true, if_false,
          and_self, iff_true]
        -- the open call is the last one, and stays in the log
        exact ⟨_, _, _, (CallTree.prefix_run_logged _ _).subset
          (List.mem_append_right _ (List.mem_singleton.mpr rfl))⟩
    · simp [logged, clock, allowed, FlagsAllowed, OpensHostFile]
      simpa [OpensHostFile] using fresh
  · simp [logged, clock, OpensHostFile]
    simpa [OpensHostFile] using fresh

/-! ## The gate -/

/-- The monitor echoes the queried path and answers with `status`. -/
def MonitorAnswers (serve : σ → Call → Reply × σ) (status : List Byte) : Prop :=
  ∀ s query, (serve s (.askMonitor query)).1.data = query ++ comma :: status

/-- The gate does for this path and this status what it is there for: the query names the
    whole path, the status found is the monitor's, and the host file is opened exactly when
    that is `A` (and the clock and the flags allow it). -/
structure GateHolds (path status : List Byte) : Prop where
  query : statusQuery path = statusMsg ++ comma :: path
  found : replyStatus (monitorReply path status) = pure (some status)
  opens : ∀ (σ : Type) (serve : σ → Call → Reply × σ) (s : σ) (errno : Nat) (d : NaClHostDesc)
    (flags mode : Nat), MonitorAnswers serve status →
      (OpensHostFile (callsOf serve s (naClHostDescOpen errno d path flags mode)) path ↔
        status = statusA ∧
          (serve (serve s (.askMonitor (statusQuery path))).2 .naClGetTimeOfDay).1.ret = 0 ∧
          FlagsAllowed flags)

/-- Once the status is found, the host file is opened exactly when it is `A`. -/
theorem naClHostDescOpen_opens_iff
    (found : replyStatus (monitorReply path status) = pure (some status))
    (serve : σ → Call → Reply × σ) (s : σ) (errno : Nat) (d : NaClHostDesc) (flags mode : Nat)
    (answers : MonitorAnswers serve status) :
    OpensHostFile (callsOf serve s (naClHostDescOpen errno d path flags mode)) path ↔
      status = statusA ∧
        (serve (serve s (.askMonitor (statusQuery path))).2 .naClGetTimeOfDay).1.ret = 0 ∧
        FlagsAllowed flags := by
  have asked : (checkFileStatus path).run (logged serve) (s, []) =
      (some (some status), (serve s (.askMonitor (statusQuery path))).2,
        [(.askMonitor (statusQuery path), (serve s (.askMonitor (statusQuery path))).1)]) := by
    rw [checkFileStatus, CallTree.perform_bind, CallTree.run_call]
    simp only [logged, answers s]
    rw [monitorReply] at found
    rw [found]
    rfl
  rw [callsOf, naClHostDescOpen, run_bind_of_some asked]
  by_cases granted : status = statusA
  · simp only [granted, if_true, true_and]
    apply openAllowed_opens_iff
    simp [OpensHostFile]
  · simp [granted, OpensHostFile]

end SandboxTEE.HostDesc
