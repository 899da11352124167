import SandboxTEE.Futex.Model
import SandboxTEE.Lib.Run

/-! # The wait list is a queue

What the futex calls are for: a queue of the threads that wait, with their addresses, and the
threads that a wake has taken out of it and that have not come back yet (`Queue`).  The pointers
follow this queue through every run (`run_follows`), and every call returns what the queue says
(`futex_waitQueue`).
-/

namespace SandboxTEE.Futex

open SandboxTEE.Lib
open SandboxTEE.Runtime

variable {threads : Nat}

/-! ## The queue -/

structure Queue (threads : Nat) where
  waiting : List (Fin threads × BitVec 32)
  woken : Finset (Fin threads)

/-- The first `n` threads that wait on an address. -/
def wakes (waiting : List (Fin threads × BitVec 32)) (addr : BitVec 32) (n : Nat) :
    List (Fin threads) :=
  ((waiting.filter (·.2 = addr)).take n).map Prod.fst

def without (waiting : List (Fin threads × BitVec 32)) (gone : List (Fin threads)) :
    List (Fin threads × BitVec 32) :=
  waiting.filter (·.1 ∉ gone)

/-- A wait gets as far as to wait. -/
def Waits (value abstimePtr : BitVec 32) (copyIn : CopyIn) : Prop :=
  (abstimePtr ≠ 0 → copyIn.abstime = true) ∧ copyIn.readValue = some value

instance (value abstimePtr : BitVec 32) (copyIn : CopyIn) :
    Decidable (Waits value abstimePtr copyIn) := inferInstanceAs (Decidable (_ ∧ _))

namespace Queue

def empty : Queue threads := ⟨[], ∅⟩

def after (q : Queue threads) : Event threads → Queue threads
  | .wait natp addr value abstimePtr copyIn =>
    if Waits value abstimePtr copyIn then { q with waiting := q.waiting ++ [(natp, addr)] } else q
  | .wake _ addr nwake =>
    let gone := wakes q.waiting addr nwake.toNat
    ⟨without q.waiting gone, q.woken ∪ gone.toFinset⟩
  | .resume natp _ => ⟨without q.waiting [natp], q.woken.erase natp⟩

/-- What a call gives back: a wake the number of the threads it takes out, which it signals; a wait
    that comes back 0 if a wake has taken its thread out, and else what the wait of the condition
    variable says. -/
def Returns (q : Queue threads) : Event threads → Outcome threads → Prop
  | .wait _ _ value abstimePtr copyIn, out =>
    if Waits value abstimePtr copyIn then out = .blocks
    else ∃ error : Nat, 0 < error ∧ out = .returns (-error)
  | .wake _ addr nwake, out =>
    let gone := wakes q.waiting addr nwake.toNat
    out = .wakes gone.length gone
  | .resume natp syncStatus, out =>
    ∃ error, naClXlateNaClSyncStatus syncStatus = some error ∧
      out = .returns (if natp ∈ q.woken then 0 else -error)

end Queue

section Wakes

variable {t : Fin threads} {a addr : BitVec 32} {n : Nat} {waiting : List (Fin threads × BitVec 32)}

@[simp] theorem wakes_zero : wakes waiting addr 0 = [] := rfl

theorem wakes_cons_self : wakes ((t, addr) :: waiting) addr (n + 1) = t :: wakes waiting addr n := by
  simp [wakes]

theorem wakes_cons_of_ne (other : a ≠ addr) :
    wakes ((t, a) :: waiting) addr n = wakes waiting addr n := by
  simp [wakes, other]

theorem wakes_subset : ∀ t ∈ wakes waiting addr n, t ∈ waiting.map Prod.fst := by
  intro t member
  obtain ⟨w, inside, rfl⟩ := List.mem_map.mp member
  exact List.mem_map_of_mem (List.mem_of_mem_filter (List.mem_of_mem_take inside))

theorem length_wakes_le : (wakes waiting addr n).length ≤ waiting.length := by
  rw [wakes, List.length_map, List.length_take]
  exact (Nat.min_le_right ..).trans (List.length_filter_le ..)

theorem mem_without {gone : List (Fin threads)} :
    t ∈ (without waiting gone).map Prod.fst ↔ t ∈ waiting.map Prod.fst ∧ t ∉ gone := by
  simp only [without, List.mem_map, List.mem_filter, decide_eq_true_eq]
  constructor
  · rintro ⟨w, ⟨inside, stays⟩, rfl⟩
    exact ⟨⟨w, inside, rfl⟩, stays⟩
  · rintro ⟨⟨w, inside, rfl⟩, stays⟩
    exact ⟨w, ⟨inside, stays⟩, rfl⟩

@[simp] theorem without_nil : without waiting [] = waiting := by
  simp [without]

theorem without_of_forall {gone : List (Fin threads)} (other : ∀ w ∈ waiting, w.1 ∉ gone) :
    without waiting gone = waiting := List.filter_eq_self.mpr fun w member => by
  simpa using other w member

end Wakes

/-! ## The pointers -/

abbrev nodes (waiting : List (Fin threads × BitVec 32)) : List (Node threads) :=
  waiting.map fun w => .thread w.1

/-- The pointers stand for a queue. -/
structure Represents (s : State threads) (q : Queue threads) : Prop where
  /-- The list has the threads that wait and are not woken, in their order. -/
  ring : Ring s.links .head (nodes q.waiting)
  addr : ∀ w ∈ q.waiting, s.waitAddr w.1 = w.2
  woken : ∀ t ∈ q.woken, s.links.next (.thread t) = none
  blocked : ∀ t, s.blocked t = true ↔ t ∈ q.waiting.map Prod.fst ∨ t ∈ q.woken

variable {s : State threads} {q : Queue threads}

theorem Represents.nodup (r : Represents s q) : (q.waiting.map Prod.fst).Nodup := by
  have nodes := (List.nodup_cons.mp r.ring.nodup).2
  exact List.Nodup.of_map (.thread : Fin threads → Node threads) (by
    rw [List.map_map]
    exact nodes)

variable {t : Fin threads}

theorem Represents.next_of_mem (r : Represents s q) (member : t ∈ q.waiting.map Prod.fst) :
    s.links.next (.thread t) ≠ none := by
  obtain ⟨w, inside, rfl⟩ := List.mem_map.mp member
  obtain ⟨xs, ys, split⟩ := List.append_of_mem inside
  have ring := r.ring
  rw [split, nodes, List.map_append, List.map_cons] at ring
  rw [ring.next_of_mem]
  exact Option.some_ne_none _

theorem represents_init (junk : Links (Node threads)) (waitAddr : Fin threads → BitVec 32) :
    Represents (State.init junk waitAddr) Queue.empty where
  ring := ring_nil (by simp [State.init, Links.setNext, Links.setPrev])
    (by simp [State.init, Links.setPrev])
  addr := nofun
  woken := nofun
  blocked := by simp [State.init, Queue.empty]

/-! ## Waking -/

/-- What the loop does from a place in the list on: `kept` is behind it, `rest` is before it, and
    `gone` are the threads it takes out. -/
structure WakeDone (w w' : Woken threads) (kept rest : List (Fin threads × BitVec 32))
    (gone : List (Fin threads)) : Prop where
  count : w'.wokenCount = w.wokenCount + BitVec.ofNat 32 gone.length
  signalled : w'.signalled = w.signalled ++ gone
  ring : Ring w'.state.links .head (nodes (kept ++ without rest gone))
  addr : ∀ t ∉ gone, w'.state.waitAddr t = w.state.waitAddr t
  woken : ∀ t ∈ gone, w'.state.links.next (.thread t) = none
  other : ∀ t ∉ (kept ++ rest).map Prod.fst,
    w'.state.links.next (.thread t) = w.state.links.next (.thread t)
  blocked : w'.state.blocked = w.state.blocked

theorem thread_mem_nodes {waiting : List (Fin threads × BitVec 32)} :
    .thread t ∈ nodes waiting ↔ t ∈ waiting.map Prod.fst := by
  simp [nodes]

section Loop

variable {addr nwake : BitVec 32} {fuel : Nat} {w : Woken threads} {t : Fin threads}

theorem wakeLoop_zero {entry : Option (Node threads)} :
    wakeLoop addr (fuel + 1) entry 0 w = some w := by
  cases entry with
  | none => rfl
  | some node => cases node <;> rfl

theorem wakeLoop_head : wakeLoop addr (fuel + 1) (some .head) nwake w = some w := ite_self ..

theorem wakeLoop_thread_of_ne (more : nwake ≠ 0) (other : w.state.waitAddr t ≠ addr) :
    wakeLoop addr (fuel + 1) (some (.thread t)) nwake w =
      wakeLoop addr fuel (w.state.links.next (.thread t)) nwake w :=
  (if_neg more).trans (if_neg other)

theorem wakeLoop_thread (more : nwake ≠ 0) (here : w.state.waitAddr t = addr)
    {links : Links (Node threads)} (removed : w.state.links.removeNode (.thread t) = some links) :
    wakeLoop addr (fuel + 1) (some (.thread t)) nwake w =
      wakeLoop addr fuel (w.state.links.next (.thread t)) (nwake - 1)
        ⟨⟨(links.setNext (.thread t) none).setPrev (.thread t) none,
          Function.update w.state.waitAddr t 0, w.state.blocked⟩,
          w.wokenCount + 1, w.signalled ++ [t]⟩ :=
  (if_neg more).trans ((if_pos here).trans (by rw [removed]; rfl))

end Loop

/-- By induction on the nodes that are still to be looked at. -/
theorem wakeLoop_done (addr : BitVec 32) {kept rest : List (Fin threads × BitVec 32)}
    {w : Woken threads} {nwake : BitVec 32} {fuel : Nat}
    (ring : Ring w.state.links .head (nodes (kept ++ rest)))
    (waits : ∀ x ∈ rest, w.state.waitAddr x.1 = x.2) (bound : rest.length < fuel) :
    ∃ w', wakeLoop addr fuel (some ((nodes rest).headD .head)) nwake w = some w' ∧
      WakeDone w w' kept rest (wakes rest addr nwake.toNat) := by
  induction rest generalizing kept w nwake fuel with
  | nil =>
    obtain ⟨fuel, rfl⟩ : ∃ n, fuel = n + 1 := ⟨fuel - 1, (Nat.sub_add_cancel bound).symm⟩
    exact ⟨w, wakeLoop_head, by simp [wakes], by simp [wakes], by simpa [wakes] using ring,
      fun _ _ => rfl, by simp [wakes], fun _ _ => rfl, rfl⟩
  | cons x rest ih =>
    obtain ⟨t, a⟩ := x
    obtain ⟨fuel, rfl⟩ : ∃ n, fuel = n + 1 := ⟨fuel - 1, by omega⟩
    rw [List.length_cons] at bound
    by_cases enough : nwake = 0
    · rw [enough]
      exact ⟨w, wakeLoop_zero, by simp, by simp, by simpa using ring, fun _ _ => rfl, by simp,
        fun _ _ => rfl, rfl⟩
    · have ring' := ring
      rw [nodes, List.map_append, List.map_cons] at ring'
      have next := ring'.next_of_mem
      have fresh : t ∉ (kept ++ rest).map Prod.fst := by
        have nodup := (List.nodup_cons.mp ring'.nodup).2
        rw [← thread_mem_nodes, nodes, List.map_append]
        exact (List.nodup_middle.mp nodup).notMem
      have absent : t ∉ rest.map Prod.fst := fun member => fresh (by simp at member ⊢; tauto)
      have address : w.state.waitAddr t = a := waits (t, a) (by simp)
      have start : (nodes ((t, a) :: rest)).headD .head = .thread t := rfl
      by_cases here : a = addr
      · obtain ⟨links, removed, ringLeft, frame⟩ := removeNode_ring ring'
        obtain ⟨n, count, less⟩ : ∃ n, nwake.toNat = n + 1 ∧ (nwake - 1).toNat = n := by
          have positive : 0 < nwake.toNat := Nat.pos_of_ne_zero fun zero =>
            enough (BitVec.eq_of_toNat_eq zero)
          exact ⟨nwake.toNat - 1, by omega, by bv_omega⟩
        rw [← List.map_append] at ringLeft frame
        have apart : Node.thread t ∉ .head :: nodes (kept ++ rest) := by
          rw [List.mem_cons, not_or, thread_mem_nodes]
          exact ⟨nofun, fresh⟩
        subst here
        rw [start, wakeLoop_thread enough address removed, next, count, wakes_cons_self]
        obtain ⟨w', ran, whole⟩ := ih
          (w := ⟨⟨(links.setNext (.thread t) none).setPrev (.thread t) none,
            Function.update w.state.waitAddr t 0, w.state.blocked⟩,
            w.wokenCount + 1, w.signalled ++ [t]⟩) (ringLeft.clear apart)
          (fun x member => (Function.update_of_ne (fun same : x.1 = t => absent
            (same ▸ List.mem_map_of_mem member)) ..).trans (waits x (by simp [member])))
          (Nat.lt_of_succ_lt_succ bound)
        rw [less] at whole
        have goes : without ((t, a) :: rest) (t :: wakes rest a n) =
            without rest (wakes rest a n) := by
          rw [without, List.filter_cons_of_neg (by simp)]
          refine List.filter_congr fun x member => ?_
          have : x.1 ≠ t := fun same => absent (same ▸ List.mem_map_of_mem member)
          simp [this]
        refine ⟨w', ran, ?_, ?_, goes ▸ whole.ring, fun t' stays => ?_, fun t' woken => ?_,
          fun t' outside => ?_, whole.blocked⟩
        · rw [whole.count, List.length_cons, BitVec.ofNat_add, BitVec.add_comm (BitVec.ofNat 32 _),
            ← BitVec.add_assoc]
          rfl
        · rw [whole.signalled, List.append_assoc]
          rfl
        · rw [List.mem_cons, not_or] at stays
          exact (whole.addr t' stays.2).trans (Function.update_of_ne stays.1 ..)
        · cases List.mem_cons.mp woken with
          | inl same =>
            subst same
            exact (whole.other t' fresh).trans (Function.update_self ..)
          | inr later => exact whole.woken t' later
        · have notHere : t' ≠ t := fun same => outside (by simp [same])
          have notLeft : t' ∉ (kept ++ rest).map Prod.fst := fun member => outside (by
            simp only [List.map_append, List.mem_append, List.map_cons, List.mem_cons] at member ⊢
            tauto)
          refine (whole.other t' notLeft).trans ((Function.update_of_ne (by simpa using notHere) ..).trans
            (frame (.thread t') ?_).1)
          rw [List.mem_cons, not_or, thread_mem_nodes]
          exact ⟨nofun, notLeft⟩
      · -- the thread stays where it is
        rw [start, wakeLoop_thread_of_ne enough (address ▸ here), next, wakes_cons_of_ne here]
        have assoc : kept ++ (t, a) :: rest = (kept ++ [(t, a)]) ++ rest := by simp
        obtain ⟨w', ran, whole⟩ := ih (w := w)
          (assoc ▸ ring) (fun x member => waits x (by simp [member])) (Nat.lt_of_succ_lt_succ bound)
        refine ⟨w', ran, { whole with ring := ?_, other := assoc ▸ whole.other }⟩
        have stays : without ((t, a) :: rest) (wakes rest addr nwake.toNat) =
            (t, a) :: without rest (wakes rest addr nwake.toNat) :=
          List.filter_cons_of_pos (by simpa using fun member => absent (wakes_subset t member))
        rw [stays]
        simpa using whole.ring

/-! ## One critical section -/

theorem Represents.length_le (r : Represents s q) : q.waiting.length ≤ threads := by
  have := r.nodup.length_le_card
  rwa [List.length_map, Fintype.card_fin] at this

theorem Represents.not_waiting (r : Represents s q) (idle : s.blocked t = false) :
    t ∉ q.waiting.map Prod.fst ∧ t ∉ q.woken := by
  rw [← not_or, ← r.blocked, idle]
  exact Bool.false_ne_true

theorem Represents.disjoint (r : Represents s q) (woken : t ∈ q.woken) :
    t ∉ q.waiting.map Prod.fst := fun member => r.next_of_mem member (r.woken t woken)

theorem wake_follows (r : Represents s q) (addr nwake : BitVec 32) :
    ∃ w', naClSysFutexWake s addr nwake = some w' ∧
      w'.wokenCount = BitVec.ofNat 32 (wakes q.waiting addr nwake.toNat).length ∧
      w'.signalled = wakes q.waiting addr nwake.toNat ∧
      ∀ natp, Represents w'.state (q.after (.wake natp addr nwake)) := by
  obtain ⟨w', ran, whole⟩ := @wakeLoop_done _ addr [] q.waiting
    ⟨s, 0, []⟩ nwake _ r.ring r.addr (Nat.lt_succ_of_le r.length_le)
  refine ⟨w', ?_, by simpa using whole.count, whole.signalled, fun natp => ⟨whole.ring, ?_, ?_, ?_⟩⟩
  · rw [naClSysFutexWake, r.ring.next_head]
    exact ran
  · intro x member
    obtain ⟨inside, stays⟩ := List.mem_filter.mp member
    exact (whole.addr x.1 (by simpa using stays)).trans (r.addr x inside)
  · intro t woken
    cases Finset.mem_union.mp woken with
    | inl before => exact (whole.other t (r.disjoint before)).trans (r.woken t before)
    | inr now => exact whole.woken t (List.mem_toFinset.mp now)
  · intro t
    have inside : t ∈ wakes q.waiting addr nwake.toNat → _ := wakes_subset t
    rw [whole.blocked, r.blocked, Queue.after, mem_without, Finset.mem_union, List.mem_toFinset]
    tauto

variable {natp : Fin threads}

theorem wait_follows (r : Represents s q) (idle : s.blocked natp = false)
    (addr value abstimePtr : BitVec 32) (copyIn : CopyIn) :
    ∃ s' result, naClSysFutexWaitAbs s natp addr value abstimePtr copyIn = some (s', result) ∧
      Represents s' (q.after (.wait natp addr value abstimePtr copyIn)) ∧
      if Waits value abstimePtr copyIn then result = none
      else ∃ error : Nat, 0 < error ∧ result = some (-(error : Int)) := by
  obtain ⟨notWaiting, notWoken⟩ := r.not_waiting idle
  by_cases waits : Waits value abstimePtr copyIn
  · have fresh : Node.thread natp ∉ .head :: nodes q.waiting := by
      rw [List.mem_cons, not_or, thread_mem_nodes]
      exact ⟨nofun, notWaiting⟩
    obtain ⟨links, added, ring, frame⟩ := addNodeAtEnd_ring r.ring fresh
    refine ⟨⟨links, Function.update s.waitAddr natp addr, Function.update s.blocked natp true⟩,
      none, ?_, ?_, by rw [if_pos waits]⟩
    · rw [naClSysFutexWaitAbs, if_neg (by simpa using waits.1), waits.2]
      simp [added]
    · rw [Queue.after, if_pos waits]
      refine ⟨by simpa using ring, fun x member => ?_, fun t woken => ?_, fun t => ?_⟩
      · rw [List.mem_append, List.mem_singleton] at member
        cases member with
        | inl before =>
          have other : x.1 ≠ natp := fun same => notWaiting (same ▸ List.mem_map_of_mem before)
          exact (Function.update_of_ne other ..).trans (r.addr x before)
        | inr new =>
          rw [new]
          exact Function.update_self ..
      · have other : t ≠ natp := fun same => notWoken (same ▸ woken)
        refine (frame (.thread t) ?_).1.trans (r.woken t woken)
        rw [List.mem_cons, not_or, List.mem_cons, not_or, thread_mem_nodes]
        exact ⟨by simpa using other, nofun, r.disjoint woken⟩
      · simp only [List.map_append, List.mem_append, List.map_cons, List.map_nil,
          List.mem_singleton, Function.update_apply]
        by_cases here : t = natp
        · simp [here]
        · rw [if_neg here, r.blocked]
          tauto
  · simp only [Queue.after, if_neg waits]
    rw [naClSysFutexWaitAbs]
    split
    · exact ⟨s, _, rfl, r, _, by decide, rfl⟩
    · next copied =>
      split
      · exact ⟨s, _, rfl, r, _, by decide, rfl⟩
      · next readValue read =>
        have differs : readValue ≠ value := fun same =>
          waits ⟨by simpa using copied, same ▸ read⟩
        rw [if_pos differs]
        exact ⟨s, _, rfl, r, _, by decide, rfl⟩

theorem resume_follows (r : Represents s q) (blocked : s.blocked natp = true)
    {syncStatus : NaClSyncStatus} {error : Nat}
    (xlated : naClXlateNaClSyncStatus syncStatus = some error) :
    ∃ s', naClSysFutexWaitAbsEnd s natp syncStatus =
        some (s', if natp ∈ q.woken then 0 else -(error : Int)) ∧
      Represents s' (q.after (.resume natp syncStatus)) := by
  -- the pointers of the thread are cleared in the end, whichever way it left the list
  have cleared : ∀ {links : Links (Node threads)} {waiting : List (Fin threads × BitVec 32)},
      Ring links .head (nodes waiting) → without q.waiting [natp] = waiting →
      (∀ t ∈ q.woken, t ≠ natp → links.next (.thread t) = s.links.next (.thread t)) →
      Represents ⟨(links.setNext (.thread natp) none).setPrev (.thread natp) none,
        Function.update s.waitAddr natp 0, Function.update s.blocked natp false⟩
        (q.after (.resume natp syncStatus)) := by
    intro links waiting ring left frame
    have gone : natp ∉ waiting.map Prod.fst := by
      rw [← left, mem_without]
      simp
    refine ⟨?_, fun x member => ?_, fun t woken => ?_, fun t => ?_⟩
    · rw [Queue.after, left]
      exact ring.clear (by simpa [thread_mem_nodes] using gone)
    · rw [Queue.after, left] at member
      have other : x.1 ≠ natp := fun same => gone (same ▸ List.mem_map_of_mem member)
      rw [← left] at member
      exact (Function.update_of_ne other ..).trans (r.addr x (List.mem_of_mem_filter member))
    · obtain ⟨other, woken⟩ := Finset.mem_erase.mp woken
      exact (Function.update_of_ne (by simpa using other) ..).trans
        ((frame t woken other).trans (r.woken t woken))
    · change Function.update s.blocked natp false t = true ↔ _
      rw [Queue.after, mem_without, Finset.mem_erase, List.mem_singleton, Function.update_apply]
      by_cases here : t = natp
      · simp [here]
      · rw [if_neg here, r.blocked]
        tauto
  rw [naClSysFutexWaitAbsEnd, xlated]
  by_cases woken : natp ∈ q.woken
  · have left : without q.waiting [natp] = q.waiting :=
      without_of_forall fun x member same => r.disjoint woken
        (List.mem_singleton.mp same ▸ List.mem_map_of_mem member)
    refine ⟨_, ?_, cleared r.ring left fun _ _ _ => rfl⟩
    simp [r.woken natp woken, woken]
  · have waiting := ((r.blocked natp).mp blocked).resolve_right woken
    obtain ⟨x, inside, rfl⟩ := List.mem_map.mp waiting
    obtain ⟨before, behind, split⟩ := List.append_of_mem inside
    have ring := r.ring
    have nodup := r.nodup
    rw [split, nodes, List.map_append, List.map_cons] at ring
    rw [split, List.map_append, List.map_cons] at nodup
    obtain ⟨links, removed, ringLeft, frame⟩ := removeNode_ring ring
    rw [← List.map_append] at ringLeft frame
    have absent := (List.nodup_middle.mp nodup).notMem
    rw [← List.map_append] at absent
    have left : without q.waiting [x.1] = before ++ behind := by
      rw [split, without, List.filter_append, List.filter_cons_of_neg (by simp), ← List.filter_append]
      exact without_of_forall fun y member same => absent
        (List.mem_singleton.mp same ▸ List.mem_map_of_mem member)
    refine ⟨_, ?_, cleared ringLeft left fun t woken _ => (frame (.thread t) ?_).1⟩
    · simp [r.next_of_mem waiting, removed, woken]
    · rw [List.mem_cons, not_or, thread_mem_nodes, ← left, mem_without]
      exact ⟨nofun, fun both => r.disjoint woken both.1⟩

/-- The thread that calls does not wait, so the others fit into the result. -/
theorem Represents.length_lt (r : Represents s q) (idle : s.blocked natp = false) :
    q.waiting.length < threads := by
  have all := (List.nodup_cons.mpr ⟨(r.not_waiting idle).1, r.nodup⟩).length_le_card
  rwa [List.length_cons, List.length_map, Fintype.card_fin] at all

theorem toInt_count {n : Nat} (small : n < 2 ^ 31) : (BitVec.ofNat 32 n).toInt = n := by
  have toNat : (BitVec.ofNat 32 n).toNat = n := by
    rw [BitVec.toNat_ofNat, Nat.mod_eq_of_lt (by omega)]
  rw [BitVec.toInt_eq_toNat_of_lt (by rw [toNat]; omega), toNat]

/-- A critical section that can begin comes to its end, follows the queue, and returns what the
    queue says. -/
theorem run_follows (few : threads ≤ 2 ^ 31) (r : Represents s q) {e : Event threads}
    (enabled : Enabled s e) :
    ∃ s' out, run s e = some (s', out) ∧ Represents s' (q.after e) ∧ q.Returns e out := by
  cases e with
  | wait natp addr value abstimePtr copyIn =>
    obtain ⟨s', result, ran, r', returned⟩ :=
      wait_follows r enabled addr value abstimePtr copyIn
    refine ⟨s', result.elim .blocks .returns, by rw [run, ran]; rfl, r', ?_⟩
    rw [Queue.Returns]
    split at returned
    · next waits =>
      rw [if_pos waits, returned]
      rfl
    · next waits =>
      obtain ⟨error, positive, returned⟩ := returned
      rw [if_neg waits, returned]
      exact ⟨error, positive, rfl⟩
  | wake natp addr nwake =>
    obtain ⟨w', ran, count, signalled, r'⟩ := wake_follows r addr nwake
    refine ⟨w'.state, _, by rw [run, ran]; rfl, r' natp, ?_⟩
    have fewer : (wakes q.waiting addr nwake.toNat).length < 2 ^ 31 := by
      have others := r.length_lt enabled
      have taken : (wakes q.waiting addr nwake.toNat).length ≤ _ := length_wakes_le
      omega
    rw [Queue.Returns, count, signalled, toInt_count fewer]
  | resume natp syncStatus =>
    obtain ⟨blocked, xlates⟩ := enabled
    obtain ⟨error, xlated⟩ := Option.ne_none_iff_exists'.mp xlates
    obtain ⟨s', ran, r'⟩ := resume_follows r blocked xlated
    exact ⟨s', _, by rw [run, ran]; rfl, r', error, xlated, rfl⟩

/-! ## Runs -/

/-- In every state of a run the pointers are a ring of exactly the threads that wait and are not
    woken, and every call that can be made next returns what the queue says.  A thread that a wake
    has taken out gets 0 whatever the status of its wait; one that no wake has taken out gets the
    status, which is 0 when the wait was ended for no reason. -/
theorem futex_waitQueue (few : threads ≤ 2 ^ 31) (junk : Links (Node threads))
    (waitAddr : Fin threads → BitVec 32) {events : List (Event threads)} {s : State threads}
    (ran : events.foldlM step (State.init junk waitAddr) = some s) :
    Represents s (events.foldl Queue.after Queue.empty) ∧
      ∀ e, Enabled s e → ∃ s' out, run s e = some (s', out) ∧
        (events.foldl Queue.after Queue.empty).Returns e out := by
  have follows : Represents s (events.foldl Queue.after Queue.empty) := by
    refine foldlM_tracks (R := Represents) (fun s q e s' r _ stepped => ?_)
      (represents_init junk waitAddr) (fun _ _ _ _ _ => trivial) ran
    rw [step] at stepped
    split at stepped
    · next enabled =>
      obtain ⟨t, out, done, r', -⟩ := run_follows few r enabled
      rw [done] at stepped
      cases stepped
      exact r'
    · cases stepped
  refine ⟨follows, fun e enabled => ?_⟩
  obtain ⟨s', out, done, -, returns⟩ := run_follows few follows enabled
  exact ⟨s', out, done, returns⟩

/-! ### Two threads -/

def noLinks : Links (Node 2) := ⟨fun _ => none, fun _ => none⟩

/-- The thread waits, without a limit. -/
def waitsUntimed (t : Fin 2) : Event 2 := .wait t 0x20000 7 0 ⟨true, some 7⟩

/-- The time of the first thread runs out while the second wakes it. -/
theorem futex_waitQueue_timeout : ∃ s s',
    [waitsUntimed 0, .wake 1 0x20000 1].foldlM step (State.init noLinks fun _ => 0) = some s ∧
      run s (.resume 0 .condvarTimedout) = some (s', .returns 0) := by
  obtain ⟨s, ran⟩ : ∃ s, [waitsUntimed 0, .wake 1 0x20000 1].foldlM step
      (State.init noLinks fun _ => 0) = some s := ⟨_, rfl⟩
  have follows := futex_waitQueue (by decide) noLinks (fun _ => 0) ran
  have enabled : Enabled s (.resume 0 .condvarTimedout) :=
    ⟨(follows.1.blocked 0).mpr (.inr (by decide)), by decide⟩
  obtain ⟨s', out, done, error, -, returns⟩ := follows.2 _ enabled
  refine ⟨s, s', ran, ?_⟩
  rw [done, returns, if_pos (by decide)]

/-- The wait of the first thread ends for no reason: it returns 0, and nobody has woken it. -/
theorem naClSysFutexWaitAbs_spurious :
    (([waitsUntimed 0].foldlM step (State.init noLinks fun _ => 0)).bind fun s =>
      (run s (.resume 0 .ok)).map (·.2)) = some (.returns 0) ∧
      0 ∉ ([waitsUntimed 0].foldl Queue.after Queue.empty).woken := by
  decide

end SandboxTEE.Futex
