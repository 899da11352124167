import SandboxTEE.Socket.Model

/-! # The socket system calls (`sys_socket.c`)

For each of the five calls, exactly when it refuses a range outside the sandbox before it does
anything, answers an unknown descriptor with an error, and leaves the reference count of the
descriptor as it was (`socketCall_iff`).
-/

namespace SandboxTEE.Socket

open SandboxTEE.DescTable
open SandboxTEE.Lib (Traced Outcome)
open SandboxTEE.Runtime
open SandboxTEE.Xcall.Frames (Call)
open Sys

/-! ## Sequences -/

namespace Sys

variable {α β : Type}

/-- What a call does in a state. -/
def at_ (x : Sys α) (s : State) : Outcome State Call (Except Stop α) := x s

variable {a : α} {s' : State} {x : Sys α} {calls : List Call}

theorem bind_at_ok {f : α → Sys β} {s : State} (first : x.at_ s = ⟨.ok a, s', calls⟩) :
    (x >>= f).at_ s = { (f a).at_ s' with events := calls ++ ((f a).at_ s').events } := by
  have first' : x s = ⟨.ok a, s', calls⟩ := first
  change (Bind.bind (m := Traced State Call) x _) s = _
  exact (Traced.run_bind_of (m := x) first').trans rfl

theorem bind_at_error {f : α → Sys β} {s : State} {why : Stop}
    (first : x.at_ s = ⟨.error why, s', calls⟩) : (x >>= f).at_ s = ⟨.error why, s', calls⟩ := by
  have first' : x s = ⟨.error why, s', calls⟩ := first
  change (Bind.bind (m := Traced State Call) x _) s = _
  refine (Traced.run_bind_of (m := x) first').trans ?_
  change Outcome.mk (Except.error why) s' (calls ++ []) = _
  rw [List.append_nil]

variable {f : DescTable.State → Except DescTable.Stop (α × DescTable.State)} {s : State}

theorem onTable_ok {table : DescTable.State} (done : f s.table = .ok (a, table)) :
    (onTable f).at_ s = ⟨.ok a, { s with table := table }, []⟩ := by
  rw [at_, onTable, done]

theorem onTable_error {why : DescTable.Stop} (done : f s.table = .error why) :
    (onTable f).at_ s = ⟨.error (.table why), s, []⟩ := by
  rw [at_, onTable, done]

end Sys

/-! ## Descriptors -/

/-- The table is in order, and what a slot holds has not been destroyed. -/
structure WellFormed (s : State) : Prop where
  ok : s.table.descTbl.Ok
  alive : ∀ i ndp, s.table.descTbl.slot i = some ndp →
    ∃ n, s.table.objects[ndp]? = some (some n) ∧ n ≠ 0

/-- The count of an object that has not been destroyed. -/
def State.count (s : State) (ndp : Nat) : Nat := refCount s.table.objects ndp

def State.setCount (s : State) (ndp n : Nat) : State :=
  { s with table := { s.table with objects := s.table.objects.set ndp (some n) } }

/-- What the number stands for. -/
def State.lookup (s : State) (d : Int) : Option Nat := s.table.descTbl.slot (index d)

/-- A lookup of the number gets a reference, which fails only when the count overflows. -/
def Taken (s : State) (d : Int) (ndp : Nat) : Prop :=
  s.lookup d = some ndp ∧ (s.count ndp + 1) % 2 ^ 64 ≠ 0

section Lookup

variable {s : State} {d : Int} {ndp : Nat}

theorem WellFormed.object (wf : WellFormed s) (here : s.lookup d = some ndp) :
    s.table.objects[ndp]? = some (some (s.count ndp)) ∧ s.count ndp ≠ 0 := by
  obtain ⟨n, object, positive⟩ := wf.alive _ _ here
  have count : s.count ndp = n := by rw [State.count, refCount, object]; rfl
  rw [count]
  exact ⟨object, positive⟩

theorem naClAppGetDesc_unknown (ok : s.table.descTbl.Ok) (here : s.lookup d = none) :
    (naClAppGetDesc d).at_ s = ⟨.ok none, s, []⟩ := by
  have get : naClAppGetDescMu s.table d = .ok (none, s.table.objects) := by
    rw [naClAppGetDescMu, ok.get, show s.table.descTbl.slot (index d) = none from here]
  exact onTable_ok (by rw [get]; rfl)

theorem naClAppGetDesc_overflow (wf : WellFormed s) (here : s.lookup d = some ndp)
    (full : (s.count ndp + 1) % 2 ^ 64 = 0) :
    (naClAppGetDesc d).at_ s = ⟨.error (.table .fatal), s, []⟩ := by
  have get : naClAppGetDescMu s.table d = .error .fatal := by
    rw [naClAppGetDescMu, wf.ok.get, show s.table.descTbl.slot (index d) = some ndp from here]
    simp only [naClRefCountRef, (wf.object here).1, if_pos full]
    rfl
  exact onTable_error (by rw [get]; rfl)

theorem naClAppGetDesc_alive (ok : s.table.descTbl.Ok) (here : s.lookup d = some ndp) {n : Nat}
    (object : s.table.objects[ndp]? = some (some n)) (fits : (n + 1) % 2 ^ 64 ≠ 0) :
    (naClAppGetDesc d).at_ s = ⟨.ok (some ndp), s.setCount ndp (n + 1), []⟩ := by
  have get : naClAppGetDescMu s.table d =
      .ok (some ndp, s.table.objects.set ndp (some (n + 1))) := by
    rw [naClAppGetDescMu, ok.get, show s.table.descTbl.slot (index d) = some ndp from here]
    simp only [naClRefCountRef, object, if_neg fits]
    rfl
  exact onTable_ok (by rw [get]; rfl)

theorem naClAppGetDesc_taken (wf : WellFormed s) (taken : Taken s d ndp) :
    (naClAppGetDesc d).at_ s = ⟨.ok (some ndp), s.setCount ndp (s.count ndp + 1), []⟩ :=
  naClAppGetDesc_alive wf.ok taken.1 (wf.object taken.1).1 taken.2

end Lookup

variable {ctx : Context}

variable {s : State}

/-- A reference that is not the last one is given back. -/
theorem naClDescUnref_at {ndp n : Nat} (object : s.table.objects[ndp]? = some (some (n + 1)))
    (more : n ≠ 0) : (naClDescUnref ctx (some ndp)).at_ s = ⟨.ok (), s.setCount ndp n, []⟩ := by
  have unref : naClRefCountUnref s.table.objects ndp = .ok (s.table.objects.set ndp (some n)) := by
    rw [naClRefCountUnref, object]
    simp [more]
  have dropped : (onTable fun t => (naClRefCountUnref t.objects ndp).map fun objects =>
      ((), { t with objects := objects })).at_ s = ⟨.ok (), s.setCount ndp n, []⟩ := by
    exact onTable_ok (by rw [unref]; rfl)
  have kept : (s.setCount ndp n).table.objects[ndp]? ≠ some none := by
    simp [State.setCount, (List.getElem?_eq_some_iff.mp object).1]
  rw [naClDescUnref, bind_at_ok dropped, bind_at_ok rfl,
    if_neg kept]
  rfl

/-- A new object is put into a free slot, unless there is no room for it. -/
theorem naClAppSetDescAvail_at (ok : s.table.descTbl.Ok) (ndp : Nat) :
    (∃ why, (naClAppSetDescAvail ctx ndp).at_ s = ⟨.error why, s, []⟩) ∨
      ∃ pos descTbl, (naClAppSetDescAvail ctx ndp).at_ s =
        ⟨.ok pos, { s with table := { s.table with descTbl := descTbl } }, []⟩ ∧ descTbl.Ok := by
  have decided : (∃ why, naClAppSetDescAvailMu ctx.allocated s.table ndp = .error why) ∨
      ∃ pos descTbl, naClAppSetDescAvailMu ctx.allocated s.table ndp =
        .ok (pos, { s.table with descTbl := descTbl }) ∧ descTbl.Ok := by
    rw [naClAppSetDescAvailMu]
    cases first : dynArrayFirstAvail s.table.descTbl with
    | mk pos descTbl =>
      obtain ⟨free, ok', same⟩ := dynArrayFirstAvail_spec ok first
      dsimp only
      split
      · exact Or.inl ⟨_, rfl⟩
      · have empty : dynArrayGet descTbl pos = none := by
          rw [ok'.get, DynArray.slot, same]
          exact free
        rw [naClAppSetDescMu, empty]
        simp only [naClDescSafeUnref]
        cases assigned : dynArraySet ctx.allocated descTbl pos (some ndp) with
        | none => exact Or.inl ⟨_, rfl⟩
        | some descTbl' => exact Or.inr ⟨pos, descTbl', rfl, (dynArraySet_spec ok' assigned).1⟩
  cases decided with
  | inl stopped =>
    obtain ⟨why, stopped⟩ := stopped
    exact Or.inl ⟨_, onTable_error (by rw [stopped]; rfl)⟩
  | inr stored =>
    obtain ⟨pos, descTbl, stored, ok'⟩ := stored
    exact Or.inr ⟨pos, descTbl, onTable_ok (by rw [stored]; rfl), ok'⟩

/-- Every state that calls on the descriptor table lead to is well formed. -/
theorem wellFormed_of_balanced (balanced : Balanced s.table) : WellFormed s where
  ok := balanced.ok
  alive := fun i ndp here => by
    obtain ⟨n, object, -, nonzero⟩ := balanced.counts.alive (d := ndp)
      (Nat.lt_of_lt_of_le (tableRefs_pos here) (Nat.le_add_right _ _))
    exact ⟨n, object, nonzero⟩

/-! ## What is asked of the calls -/

inductive SockCall where
  | socketOpen (domain type protocol : Int)
  | socketBind (sockfd : Int) (myaddr : BitVec 32) (addrlen : BitVec 64)
  | socketListen (sockfd backlog : Int)
  | socketAccept (sockfd : Int) (addr : BitVec 32) (addrlen : BitVec 64)
  | socketConnect (sockfd : Int) (servaddr : BitVec 32) (addrlen : BitVec 64)

namespace SockCall

def run (ctx : Context) : SockCall → Sys Int
  | socketOpen domain type protocol => naClSysSocketOpen ctx domain type protocol
  | socketBind sockfd myaddr addrlen => naClSysSocketBind ctx sockfd myaddr addrlen
  | socketListen sockfd backlog => naClSysSocketListen ctx sockfd backlog
  | socketAccept sockfd addr addrlen => naClSysSocketAccept ctx sockfd addr addrlen
  | socketConnect sockfd servaddr addrlen => naClSysSocketConnect ctx sockfd servaddr addrlen

/-- The descriptor number that a call names. -/
def named : SockCall → Option Int
  | socketOpen .. => none
  | socketBind sockfd .. | socketListen sockfd _ | socketAccept sockfd .. |
    socketConnect sockfd .. => some sockfd

/-- The range of user addresses that a call gives. -/
def range : SockCall → Option (BitVec 32 × BitVec 64)
  | socketOpen .. | socketListen .. => none
  | socketBind _ addr addrlen | socketAccept _ addr addrlen | socketConnect _ addr addrlen =>
    some (addr, addrlen)

end SockCall

/-- The range lies in `[0, 2^addr_bits)`. -/
def Inside (ctx : Context) (addr : BitVec 32) (addrlen : BitVec 64) : Prop :=
  addr.toNat + addrlen.toNat ≤ 2 ^ ctx.nap.addrBits

/-- The outcome of a call that returns an error and has done nothing. -/
def Refused (s : State) (o : Outcome State Call (Except Stop Int)) : Prop :=
  ∃ retval : Int, retval < 0 ∧ o = ⟨.ok retval, s, []⟩

/-- No wrapper is entered, and the call does not return a success. -/
def FailsFirst (o : Outcome State Call (Except Stop Int)) : Prop :=
  o.events = [] ∧ ∀ retval : Int, o.result = .ok retval → retval < 0

structure Meets (ctx : Context) (s : State) (c : SockCall) : Prop where
  range : ∀ addr addrlen, c.range = some (addr, addrlen) → ¬ Inside ctx addr addrlen →
    FailsFirst ((c.run ctx).at_ s)
  unknown : ∀ sockfd, c.named = some sockfd → s.lookup sockfd = none →
    Refused s ((c.run ctx).at_ s)
  count : ∀ sockfd ndp retval, c.named = some sockfd → s.lookup sockfd = some ndp →
    ((c.run ctx).at_ s).result = .ok retval → ((c.run ctx).at_ s).state.count ndp = s.count ndp

/-- When that is so.  `NaClSysSocketBind` and `NaClSysSocketListen` keep every reference they get,
    `NaClSysSocketAccept` and `NaClSysSocketConnect` do not look at the translated address, and
    `NaClSysSocketConnect` releases NULL. -/
def MeetsWhen (ctx : Context) (s : State) : SockCall → Prop
  | .socketOpen .. => True
  | .socketBind sockfd .. | .socketListen sockfd _ => ∀ ndp, ¬ Taken s sockfd ndp
  | .socketAccept sockfd addr addrlen =>
    ∀ ndp self, Taken s sockfd ndp → s.descs ndp = .socket self → Inside ctx addr addrlen
  | .socketConnect sockfd servaddr addrlen => s.lookup sockfd ≠ none ∧
    ∀ ndp self, Taken s sockfd ndp → s.descs ndp = .socket self → Inside ctx servaddr addrlen

/-! ## The calls -/

section Calls

variable {s : State} {d : Int} {ndp : Nat} (f : Option Nat → Sys Int)

theorem lookup_unknown (wf : WellFormed s) (here : s.lookup d = none) :
    (naClAppGetDesc d >>= f).at_ s = (f none).at_ s := by
  rw [bind_at_ok (naClAppGetDesc_unknown wf.ok here)]
  rfl

theorem lookup_overflow (wf : WellFormed s) (here : s.lookup d = some ndp)
    (full : (s.count ndp + 1) % 2 ^ 64 = 0) :
    (naClAppGetDesc d >>= f).at_ s = ⟨.error (.table .fatal), s, []⟩ :=
  bind_at_error (naClAppGetDesc_overflow wf here full)

theorem lookup_taken (wf : WellFormed s) (taken : Taken s d ndp) :
    (naClAppGetDesc d >>= f).at_ s = (f (some ndp)).at_ (s.setCount ndp (s.count ndp + 1)) := by
  rw [bind_at_ok (naClAppGetDesc_taken wf taken)]
  rfl

theorem count_setCount {n : Nat} (alive : ndp < s.table.objects.length) :
    (s.setCount ndp n).count ndp = n := by
  rw [State.count, refCount, State.setCount]
  simp [alive]

theorem WellFormed.inside (wf : WellFormed s) (taken : Taken s d ndp) :
    ndp < s.table.objects.length :=
  (List.getElem?_eq_some_iff.mp (wf.object taken.1).1).1

/-- `NaClSysSocketBind` returns without giving its reference back. -/
theorem naClSysSocketBind_keeps (wf : WellFormed s) (taken : Taken s d ndp) (myaddr : BitVec 32)
    (addrlen : BitVec 64) : ∃ retval, ((naClSysSocketBind ctx d myaddr addrlen).at_ s).result =
      .ok retval ∧
        ((naClSysSocketBind ctx d myaddr addrlen).at_ s).state.count ndp = s.count ndp + 1 := by
  rw [naClSysSocketBind, lookup_taken _ wf taken]
  have count := count_setCount (n := s.count ndp + 1) (wf.inside taken)
  rw [bind_at_ok (x := get) rfl]
  cases kind : (s.setCount ndp (s.count ndp + 1)).descs ndp with
  | socket self => exact ⟨0, rfl, count⟩
  | other => exact ⟨-naClAbiEINVAL, rfl, count⟩

theorem naClSysSocketListen_keeps (wf : WellFormed s) (taken : Taken s d ndp) (backlog : Int) :
    ∃ retval, ((naClSysSocketListen ctx d backlog).at_ s).result = .ok retval ∧
      ((naClSysSocketListen ctx d backlog).at_ s).state.count ndp = s.count ndp + 1 := by
  rw [naClSysSocketListen, lookup_taken _ wf taken]
  have count := count_setCount (n := s.count ndp + 1) (wf.inside taken)
  rw [bind_at_ok (x := get) rfl]
  cases kind : (s.setCount ndp (s.count ndp + 1)).descs ndp with
  | socket self => exact ⟨_, rfl, count⟩
  | other => exact ⟨-naClAbiEINVAL, rfl, count⟩

end Calls

section Calls

variable {s : State} {d : Int} {ndp : Nat}

/-- A call that ends by giving its reference back. -/
theorem unref_count {t : State} {n : Nat} (object : t.table.objects[ndp]? = some (some (n + 1)))
    (more : n ≠ 0) (retval : Int) :
    ((naClDescUnref ctx (some ndp) >>= fun _ => (pure retval : Sys Int)).at_ t) =
      ⟨.ok retval, t.setCount ndp n, []⟩ ∧ (t.setCount ndp n).count ndp = n := by
  refine ⟨?_, count_setCount (List.getElem?_eq_some_iff.mp object).1⟩
  rw [bind_at_ok (naClDescUnref_at object more)]
  rfl

theorem getElem_setCount (wf : WellFormed s) (taken : Taken s d ndp) (n : Nat) :
    (s.setCount ndp n).table.objects[ndp]? = some (some n) :=
  List.getElem?_set_self (wf.inside taken)

theorem naClSysSocketAccept_other (wf : WellFormed s) (taken : Taken s d ndp)
    (other : s.descs ndp = .other) (addr : BitVec 32) (addrlen : BitVec 64) :
    ((naClSysSocketAccept ctx d addr addrlen).at_ s) = ⟨.ok (-naClAbiEINVAL),
        (s.setCount ndp (s.count ndp + 1)).setCount ndp (s.count ndp), []⟩ ∧
      ((s.setCount ndp (s.count ndp + 1)).setCount ndp (s.count ndp)).count ndp = s.count ndp := by
  obtain ⟨done, count⟩ := unref_count (getElem_setCount wf taken (s.count ndp + 1))
    (wf.object taken.1).2 (-naClAbiEINVAL)
  refine ⟨?_, count⟩
  rw [naClSysSocketAccept, lookup_taken _ wf taken, bind_at_ok (x := get) rfl]
  have kind : (s.setCount ndp (s.count ndp + 1)).descs ndp = .other := other
  rw [kind, bind_at_ok rfl]
  exact (congrArg (fun o => { o with events := [] ++ ([] ++ o.events) }) done).trans rfl

/-- A state with one more object, a socket. -/
def State.made (s : State) (self : SocketDesc) : State :=
  ⟨{ s.table with objects := s.table.objects ++ [some 1] },
    Function.update s.descs s.table.objects.length (.socket self)⟩

/-- `NaClDescSocketAccept` makes a descriptor for what the wrapper returns, unless that is an
    error. -/
theorem naClDescSocketAccept_at (s : State) (self : SocketDesc) (addr : Nat)
    (addrlen : BitVec 64) : (naClDescSocketAccept ctx self addr addrlen).at_ s =
      if (ctx.ran (acceptCall ctx self addr addrlen)).result < 0 then
        ⟨.ok (.error (-naClAbiEINVAL)), s, [acceptCall ctx self addr addrlen]⟩
      else ⟨.ok (.ok s.table.objects.length),
        s.made { ctx.junk with d := (ctx.ran (acceptCall ctx self addr addrlen)).result },
        [acceptCall ctx self addr addrlen]⟩ := by
  rw [naClDescSocketAccept, bind_at_ok (x := ocall ctx (acceptCall ctx self addr addrlen)) rfl]
  by_cases failed : (ctx.ran (acceptCall ctx self addr addrlen)).result < 0
  · rw [if_pos failed, if_pos failed]
    rfl
  · rw [if_neg failed, if_neg failed]
    have twice : ∀ desc desc' : Desc, Function.update (Function.update s.descs
        s.table.objects.length desc) s.table.objects.length desc' =
          Function.update s.descs s.table.objects.length desc' := fun _ _ =>
      Function.update_idem ..
    have made := congrArg (State.mk { s.table with objects := s.table.objects ++ [some 1] })
      (twice (.socket { ctx.junk with d := 0 })
        (.socket { ctx.junk with d := (ctx.ran (acceptCall ctx self addr addrlen)).result }))
    exact congrArg (Outcome.mk _ · _) made

theorem naClSysSocketAccept_socket (wf : WellFormed s) (taken : Taken s d ndp) {self : SocketDesc}
    (socket : s.descs ndp = .socket self) (addr : BitVec 32) (addrlen : BitVec 64) :
    ((naClSysSocketAccept ctx d addr addrlen).at_ s).events ≠ [] ∧
      ∀ retval, ((naClSysSocketAccept ctx d addr addrlen).at_ s).result = .ok retval →
        ((naClSysSocketAccept ctx d addr addrlen).at_ s).state.count ndp = s.count ndp := by
  have more := (wf.object taken.1).2
  have object := getElem_setCount wf taken (s.count ndp + 1)
  rw [naClSysSocketAccept, lookup_taken _ wf taken, bind_at_ok (x := get) rfl]
  have kind : (s.setCount ndp (s.count ndp + 1)).descs ndp = .socket self := socket
  rw [kind]
  have accepted := @naClDescSocketAccept_at ctx (s.setCount ndp (s.count ndp + 1)) self
    (sysAddr ctx addr addrlen) addrlen
  split at accepted
  · rw [bind_at_ok accepted]
    obtain ⟨done, count⟩ := unref_count object more (-naClAbiEINVAL)
    dsimp only
    rw [done]
    exact ⟨List.cons_ne_nil _ _, fun _ _ => count⟩
  · rw [bind_at_ok accepted]
    dsimp only
    have ok : ((s.setCount ndp (s.count ndp + 1)).made { ctx.junk with
      d := (ctx.ran (acceptCall ctx self (sysAddr ctx addr addrlen) addrlen)).result }).table.descTbl.Ok :=
      wf.ok
    cases naClAppSetDescAvail_at ok (s.setCount ndp (s.count ndp + 1)).table.objects.length with
    | inl stopped =>
      obtain ⟨why, stopped⟩ := stopped
      rw [bind_at_error stopped]
      exact ⟨List.cons_ne_nil _ _, nofun⟩
    | inr stored =>
      obtain ⟨pos, descTbl, stored, -⟩ := stored
      rw [bind_at_ok stored]
      dsimp only
      have object' : ((s.setCount ndp (s.count ndp + 1)).table.objects ++ [some 1])[ndp]? =
          some (some (s.count ndp + 1)) := by
        rw [List.getElem?_append_left (by simpa [State.setCount] using wf.inside taken), object]
      obtain ⟨done, count⟩ := unref_count (t := { (s.setCount ndp (s.count ndp + 1)).made
          { ctx.junk with d := (ctx.ran (acceptCall ctx self (sysAddr ctx addr addrlen) addrlen)).result }
        with table := ⟨descTbl, (s.setCount ndp (s.count ndp + 1)).table.objects ++ [some 1], s.table.ops⟩ })
        object' more pos
      refine ⟨List.cons_ne_nil _ _, fun retval returned => ?_⟩
      exact (congrArg (fun o : Outcome State Call (Except Stop Int) => o.state.count ndp) done).trans count

end Calls

section Calls

variable {s : State} {d : Int} {ndp : Nat}

def State.update (s : State) (ndp : Nat) (self : SocketDesc) : State :=
  { s with descs := Function.update s.descs ndp (.socket self) }

/-- `NaClDescSocketConnect` sets `hd->d` to what the wrapper returns, unless that is an error. -/
theorem naClDescSocketConnect_at (s : State) (ndp : Nat) (self : SocketDesc) (addr : Nat)
    (addrlen : BitVec 64) : (naClDescSocketConnect ctx ndp self addr addrlen).at_ s =
      if (ctx.ran (connectCall ctx addr addrlen)).result < 0 then
        ⟨.ok (-naClAbiEINVAL), s, [connectCall ctx addr addrlen]⟩
      else ⟨.ok 0,
        s.update ndp { self with d := (ctx.ran (connectCall ctx addr addrlen)).result },
        [connectCall ctx addr addrlen]⟩ := by
  rw [naClDescSocketConnect, bind_at_ok (x := ocall ctx (connectCall ctx addr addrlen)) rfl]
  by_cases failed : (ctx.ran (connectCall ctx addr addrlen)).result < 0
  · rw [if_pos failed, if_pos failed]
    rfl
  · rw [if_neg failed, if_neg failed]
    rfl

theorem naClSysSocketConnect_socket (wf : WellFormed s) (taken : Taken s d ndp)
    {self : SocketDesc} (socket : s.descs ndp = .socket self) (servaddr : BitVec 32)
    (addrlen : BitVec 64) : ((naClSysSocketConnect ctx d servaddr addrlen).at_ s).events ≠ [] ∧
      ∀ retval, ((naClSysSocketConnect ctx d servaddr addrlen).at_ s).result = .ok retval →
        ((naClSysSocketConnect ctx d servaddr addrlen).at_ s).state.count ndp = s.count ndp := by
  have more := (wf.object taken.1).2
  have object := getElem_setCount wf taken (s.count ndp + 1)
  rw [naClSysSocketConnect, lookup_taken _ wf taken, bind_at_ok (x := get) rfl]
  have kind : (s.setCount ndp (s.count ndp + 1)).descs ndp = .socket self := socket
  rw [kind]
  have connected := @naClDescSocketConnect_at ctx (s.setCount ndp (s.count ndp + 1)) ndp
    self (sysAddr ctx servaddr addrlen) addrlen
  split at connected
  · rw [bind_at_ok connected]
    obtain ⟨done, count⟩ := unref_count object more (-naClAbiEINVAL)
    rw [done]
    exact ⟨List.cons_ne_nil _ _, fun _ _ => count⟩
  · rw [bind_at_ok connected]
    obtain ⟨done, count⟩ := unref_count (t := (s.setCount ndp (s.count ndp + 1)).update
      ndp { self with d := (ctx.ran (connectCall ctx (sysAddr ctx servaddr addrlen) addrlen)).result })
      object more 0
    rw [done]
    exact ⟨List.cons_ne_nil _ _, fun _ _ => count⟩

theorem naClSysSocketConnect_other (wf : WellFormed s) (taken : Taken s d ndp)
    (other : s.descs ndp = .other) (servaddr : BitVec 32) (addrlen : BitVec 64) :
    ((naClSysSocketConnect ctx d servaddr addrlen).at_ s) = ⟨.ok (-naClAbiEINVAL),
        (s.setCount ndp (s.count ndp + 1)).setCount ndp (s.count ndp), []⟩ ∧
      ((s.setCount ndp (s.count ndp + 1)).setCount ndp (s.count ndp)).count ndp = s.count ndp := by
  obtain ⟨done, count⟩ := unref_count (getElem_setCount wf taken (s.count ndp + 1))
    (wf.object taken.1).2 (-naClAbiEINVAL)
  refine ⟨?_, count⟩
  rw [naClSysSocketConnect, lookup_taken _ wf taken, bind_at_ok (x := get) rfl]
  have kind : (s.setCount ndp (s.count ndp + 1)).descs ndp = .other := other
  rw [kind, bind_at_ok rfl]
  exact (congrArg (fun o => { o with events := [] ++ ([] ++ o.events) }) done).trans rfl

end Calls

/-! ## When the calls are in order -/

section Meets

variable {s : State} {c : SockCall}

/-- A call that names no descriptor and gives no range. -/
theorem meets_of_none (named : c.named = none) (range : c.range = none) : Meets ctx s c where
  range := fun _ _ given => absurd (range.symm.trans given) nofun
  unknown := fun _ given => absurd (named.symm.trans given) nofun
  count := fun _ _ _ given => absurd (named.symm.trans given) nofun

variable {d : Int}

/-- A call that names a descriptor which is unknown. -/
theorem meets_of_unknown (named : c.named = some d) (here : s.lookup d = none)
    (refused : Refused s ((c.run ctx).at_ s)) : Meets ctx s c where
  range := fun _ _ _ _ => by
    obtain ⟨retval, negative, outcome⟩ := refused
    rw [outcome]
    refine ⟨rfl, fun retval' same => ?_⟩
    cases same
    exact negative
  unknown := fun _ _ _ => refused
  count := fun d' ndp _ given found => by
    cases named.symm.trans given
    rw [here] at found
    cases found

variable {ndp : Nat}

/-- A call that ends with the overflow of a count. -/
theorem meets_of_overflow (named : c.named = some d) (here : s.lookup d = some ndp)
    (fatal : (c.run ctx).at_ s = ⟨.error (.table .fatal), s, []⟩) : Meets ctx s c where
  range := fun _ _ _ _ => by
    rw [fatal]
    exact ⟨rfl, nofun⟩
  unknown := fun d' given found => by
    cases named.symm.trans given
    rw [here] at found
    cases found
  count := fun _ _ _ _ _ returned => by
    rw [fatal] at returned
    cases returned

theorem meets_taken_iff (named : c.named = some d) (taken : Taken s d ndp) : Meets ctx s c ↔
      (∀ addr addrlen, c.range = some (addr, addrlen) → ¬ Inside ctx addr addrlen →
        FailsFirst ((c.run ctx).at_ s)) ∧ ∀ retval, ((c.run ctx).at_ s).result = .ok retval →
        ((c.run ctx).at_ s).state.count ndp = s.count ndp := by
  constructor
  · exact fun meets => ⟨meets.range, fun retval => meets.count d ndp retval named taken.1⟩
  · rintro ⟨range, count⟩
    refine ⟨range, fun d' given found => ?_, fun d' ndp' retval given found => ?_⟩
    · cases named.symm.trans given
      rw [taken.1] at found
      cases found
    · cases named.symm.trans given
      rw [taken.1] at found
      cases found
      exact count retval

theorem lookup_cases (s : State) (d : Int) : s.lookup d = none ∨ ∃ ndp, s.lookup d = some ndp ∧
    ((s.count ndp + 1) % 2 ^ 64 = 0 ∨ Taken s d ndp) := by
  cases here : s.lookup d with
  | none => exact Or.inl rfl
  | some ndp =>
    refine Or.inr ⟨ndp, rfl, ?_⟩
    by_cases full : (s.count ndp + 1) % 2 ^ 64 = 0
    · exact Or.inl full
    · exact Or.inr ⟨here, full⟩

theorem not_taken_of_unknown (here : s.lookup d = none) (ndp : Nat) :
    ¬ Taken s d ndp := fun taken => absurd (here.symm.trans taken.1) nofun

theorem not_taken_of_overflow (here : s.lookup d = some ndp) (full : (s.count ndp + 1) % 2 ^ 64 = 0)
    (ndp' : Nat) : ¬ Taken s d ndp' := by
  intro taken
  cases here.symm.trans taken.1
  exact taken.2 full

theorem Taken.unique {ndp' : Nat} (taken : Taken s d ndp) (taken' : Taken s d ndp') :
    ndp' = ndp := by
  cases taken.1.symm.trans taken'.1
  rfl

end Meets

section Iff

variable {s : State}

theorem refused_pure {retval : Int} (negative : retval < 0) :
    Refused s ((pure retval : Sys Int).at_ s) := ⟨retval, negative, rfl⟩

theorem meets_bind_iff (wf : WellFormed s) (sockfd : Int) (myaddr : BitVec 32)
    (addrlen : BitVec 64) : Meets ctx s (.socketBind sockfd myaddr addrlen) ↔
      ∀ ndp, ¬ Taken s sockfd ndp := by
  rcases lookup_cases s sockfd with here | ⟨ndp, here, full | taken⟩
  · refine iff_of_true (meets_of_unknown rfl here ?_) (not_taken_of_unknown here)
    rw [SockCall.run, naClSysSocketBind, lookup_unknown _ wf here]
    exact refused_pure (by decide)
  · refine iff_of_true (meets_of_overflow rfl here ?_) (not_taken_of_overflow here full)
    exact lookup_overflow _ wf here full
  · refine iff_of_false (fun meets => ?_) fun none => none ndp taken
    obtain ⟨retval, returned, count⟩ := naClSysSocketBind_keeps wf taken myaddr addrlen
    have same := meets.count sockfd ndp retval rfl here returned
    exact absurd (count.symm.trans same) (Nat.succ_ne_self _)

theorem meets_listen_iff (wf : WellFormed s) (sockfd backlog : Int) :
    Meets ctx s (.socketListen sockfd backlog) ↔ ∀ ndp, ¬ Taken s sockfd ndp := by
  rcases lookup_cases s sockfd with here | ⟨ndp, here, full | taken⟩
  · refine iff_of_true (meets_of_unknown rfl here ?_) (not_taken_of_unknown here)
    rw [SockCall.run, naClSysSocketListen, lookup_unknown _ wf here]
    exact refused_pure (by decide)
  · refine iff_of_true (meets_of_overflow rfl here ?_) (not_taken_of_overflow here full)
    exact lookup_overflow _ wf here full
  · refine iff_of_false (fun meets => ?_) fun none => none ndp taken
    obtain ⟨retval, returned, count⟩ := naClSysSocketListen_keeps wf taken backlog
    have same := meets.count sockfd ndp retval rfl here returned
    exact absurd (count.symm.trans same) (Nat.succ_ne_self _)

/-- A call that has found a descriptor and hands the translated address on unseen. -/
theorem meets_of_unchecked {c : SockCall} {sockfd : Int} {addr : BitVec 32} {addrlen : BitVec 64}
    (named : c.named = some sockfd) (range : c.range = some (addr, addrlen)) {ndp : Nat}
    (taken : Taken s sockfd ndp)
    (socket : ∀ self, s.descs ndp = .socket self → ((c.run ctx).at_ s).events ≠ [])
    (other : s.descs ndp = .other → FailsFirst ((c.run ctx).at_ s))
    (count : ∀ retval, ((c.run ctx).at_ s).result = .ok retval →
      ((c.run ctx).at_ s).state.count ndp = s.count ndp) :
    Meets ctx s c ↔ ∀ ndp self, Taken s sockfd ndp → s.descs ndp = .socket self →
      Inside ctx addr addrlen := by
  rw [meets_taken_iff named taken]
  constructor
  · rintro ⟨refuses, -⟩ ndp' self taken' kind
    cases taken.unique taken'
    by_contra outside
    exact socket self kind (refuses addr addrlen range outside).1
  · refine fun inside => ⟨fun addr' addrlen' given outside => ?_, count⟩
    cases range.symm.trans given
    cases kind : s.descs ndp with
    | socket self => exact absurd (inside ndp self taken kind) outside
    | other => exact other kind

theorem meets_accept_iff (wf : WellFormed s) (sockfd : Int) (addr : BitVec 32)
    (addrlen : BitVec 64) : Meets ctx s (.socketAccept sockfd addr addrlen) ↔
      ∀ ndp self, Taken s sockfd ndp → s.descs ndp = .socket self → Inside ctx addr addrlen := by
  rcases lookup_cases s sockfd with here | ⟨ndp, here, full | taken⟩
  · refine iff_of_true (meets_of_unknown rfl here ?_) fun ndp _ taken =>
      absurd taken (not_taken_of_unknown here ndp)
    rw [SockCall.run, naClSysSocketAccept, lookup_unknown _ wf here]
    exact refused_pure (by decide)
  · refine iff_of_true (meets_of_overflow rfl here ?_) fun ndp _ taken =>
      absurd taken (not_taken_of_overflow here full ndp)
    exact lookup_overflow _ wf here full
  · refine meets_of_unchecked rfl rfl taken (fun self kind => ?_) (fun kind => ?_) ?_
    · exact (naClSysSocketAccept_socket wf taken kind addr addrlen).1
    · rw [SockCall.run, (naClSysSocketAccept_other wf taken kind addr addrlen).1]
      exact ⟨rfl, fun retval same => by cases same; decide⟩
    · intro retval returned
      cases kind : s.descs ndp with
      | socket self =>
        exact (naClSysSocketAccept_socket wf taken kind addr addrlen).2 retval returned
      | other =>
        obtain ⟨outcome, count⟩ := naClSysSocketAccept_other wf taken kind addr addrlen
        rw [SockCall.run, outcome]
        exact count

theorem meets_connect_iff (wf : WellFormed s) (sockfd : Int) (servaddr : BitVec 32)
    (addrlen : BitVec 64) : Meets ctx s (.socketConnect sockfd servaddr addrlen) ↔
      s.lookup sockfd ≠ none ∧ ∀ ndp self, Taken s sockfd ndp → s.descs ndp = .socket self →
        Inside ctx servaddr addrlen := by
  rcases lookup_cases s sockfd with here | ⟨ndp, here, full | taken⟩
  · -- `NaClDescUnref(NULL)`
    refine iff_of_false (fun meets => ?_) fun known => known.1 here
    obtain ⟨retval, -, outcome⟩ := meets.unknown sockfd rfl here
    rw [SockCall.run, naClSysSocketConnect, lookup_unknown _ wf here] at outcome
    exact absurd (congrArg Outcome.result outcome) nofun
  · refine iff_of_true (meets_of_overflow rfl here (lookup_overflow _ wf here full)) ⟨?_, ?_⟩
    · rw [here]
      exact nofun
    · exact fun ndp _ taken => absurd taken (not_taken_of_overflow here full ndp)
  · rw [and_iff_right (by rw [here]; exact nofun)]
    refine meets_of_unchecked rfl rfl taken (fun self kind => ?_) (fun kind => ?_) ?_
    · exact (naClSysSocketConnect_socket wf taken kind servaddr addrlen).1
    · rw [SockCall.run, (naClSysSocketConnect_other wf taken kind servaddr addrlen).1]
      exact ⟨rfl, fun retval same => by cases same; decide⟩
    · intro retval returned
      cases kind : s.descs ndp with
      | socket self =>
        exact (naClSysSocketConnect_socket wf taken kind servaddr addrlen).2 retval returned
      | other =>
        obtain ⟨outcome, count⟩ :=
          naClSysSocketConnect_other wf taken kind servaddr addrlen
        rw [SockCall.run, outcome]
        exact count

end Iff

theorem socketCall_iff (ctx : Context) {s : State} (wf : WellFormed s) (c : SockCall) :
    Meets ctx s c ↔ MeetsWhen ctx s c := by
  cases c with
  | socketOpen domain type protocol => exact iff_of_true (meets_of_none rfl rfl) trivial
  | socketBind sockfd myaddr addrlen => exact meets_bind_iff wf sockfd myaddr addrlen
  | socketListen sockfd backlog => exact meets_listen_iff wf sockfd backlog
  | socketAccept sockfd addr addrlen => exact meets_accept_iff wf sockfd addr addrlen
  | socketConnect sockfd servaddr addrlen => exact meets_connect_iff wf sockfd servaddr addrlen

/-! ### One environment -/

/-- A 4 GiB sandbox in an enclave, and a host that refuses everything. -/
def refusingHost : Context where
  e := ⟨0x100000000, 0x300000000, 0x80000000⟩
  nap := ⟨32, 0x100000000, fourGigabytes_inSpace⟩
  ustack := 0x7fff0000
  lenPtr := 0x200000000
  lenPtrGiven := by decide
  junk := ⟨0, 0, 0⟩
  allocated := true
  peer := ⟨⟨-1, 0, 0, 0, 0, 0⟩, 0⟩
  transfer := ⟨⟨-1, 0, 0⟩, -1, 0, 0⟩
  sent := ⟨⟨-1, 0, 0⟩, -1, 0⟩
  closed := -1
  other := 0

/-- No descriptor is open. -/
def State.empty : State := ⟨.start 0, fun _ => .other⟩

theorem wellFormed_empty : WellFormed State.empty := wellFormed_of_balanced (start_balanced 0)

theorem socketCall_iff_empty : Meets refusingHost .empty (.socketAccept 5 0x10000 16) ↔
    MeetsWhen refusingHost .empty (.socketAccept 5 0x10000 16) :=
  socketCall_iff refusingHost wellFormed_empty _

/-- `NaClSysSocketConnect` of an unknown descriptor dereferences NULL. -/
theorem naClSysSocketConnect_unknown : WellFormed State.empty ∧
    ¬ Meets refusingHost .empty (.socketConnect 5 0x10000 16) := by
  refine ⟨wellFormed_empty, fun meets => ?_⟩
  exact ((meets_connect_iff wellFormed_empty 5 0x10000 16).mp meets).1 (by decide)

end SandboxTEE.Socket
