import SandboxTEE.Socket.Calls

/-! # What the calls do to the sockets

Of the state, only which objects are live sockets and what these hold matters to the host.  Each
call that returns has one of a few effects on that, and enters at most one wrapper
(`run_effect`).
-/

namespace SandboxTEE.Socket

open SandboxTEE.DescTable
open SandboxTEE.Lib (Outcome)
open SandboxTEE.Runtime
open SandboxTEE.Xcall.Frames (Call)
open Sys

/-- The socket calls, and those for any descriptor. -/
inductive SocketOp where
  | call (c : SockCall)
  | read (d : Int) (buf count : BitVec 32)
  | write (d : Int) (buf count : BitVec 32)
  | close (d : Int)

namespace SocketOp

def run (ctx : Context) : SocketOp → Sys Int
  | call c => c.run ctx
  | read d buf count => naClSysRead ctx d buf count
  | write d buf count => naClSysWrite ctx d buf count
  | close d => naClSysClose ctx d

def named : SocketOp → Option Int
  | call c => c.named
  | read d _ _ | write d _ _ | close d => some d

end SocketOp

/-! ## The live sockets -/

/-- The table is in order, and an object without references has been destroyed. -/
structure Sound (s : State) : Prop where
  ok : s.table.descTbl.Ok
  positive : ∀ ndp : Nat, s.table.objects[ndp]? ≠ some (some 0)

def Desc.asSocket : Desc → Option SocketDesc
  | .socket self => some self
  | .other => none

/-- An object that is a socket and has not been destroyed. -/
def State.socketAt (s : State) (ndp : Nat) : Option SocketDesc :=
  if s.table.objects[ndp]?.join.isSome then (s.descs ndp).asSocket else none

/-- A sound state with these sockets. -/
structure After (s : State) (sockets : Nat → Option SocketDesc) : Prop where
  sound : Sound s
  eq : s.socketAt = sockets

def State.dropped (s : State) (ndp : Nat) : State :=
  { s with table := { s.table with objects := s.table.objects.set ndp none } }

section After

variable {s : State} {ndp n : Nat} {self : SocketDesc}

theorem asSocket_eq_some {desc : Desc} : desc.asSocket = some self ↔ desc = .socket self := by
  cases desc with
  | socket self' => simp [Desc.asSocket]
  | other => exact iff_of_false nofun nofun

theorem socketAt_eq_some : s.socketAt ndp = some self ↔
    (∃ n, s.table.objects[ndp]? = some (some n)) ∧ s.descs ndp = .socket self := by
  unfold State.socketAt
  rw [Option.ite_none_right_eq_some, asSocket_eq_some, Option.isSome_iff_exists]
  simp only [Option.join_eq_some_iff]

theorem Sound.setCount (sound : Sound s) (object : s.table.objects[ndp]? = some (some n)) {m : Nat}
    (positive : m ≠ 0) : After (s.setCount ndp m) s.socketAt := by
  have inside := (List.getElem?_eq_some_iff.mp object).1
  refine ⟨⟨sound.ok, fun e => ?_⟩, funext fun e => ?_⟩
  · by_cases same : e = ndp
    · subst same
      simpa [State.setCount, inside] using positive
    · rw [State.setCount]
      dsimp only
      rw [List.getElem?_set_ne (Ne.symm same)]
      exact sound.positive e
  · rw [State.socketAt, State.socketAt, State.setCount]
    dsimp only
    by_cases same : e = ndp
    · subst same
      rw [List.getElem?_set_self inside, object]
      rfl
    · rw [List.getElem?_set_ne (Ne.symm same)]

theorem Sound.made (sound : Sound s) (self : SocketDesc) :
    After (s.made self) (Function.update s.socketAt s.table.objects.length (some self)) := by
  refine ⟨⟨sound.ok, fun e => ?_⟩, funext fun e => ?_⟩
  · rw [State.made]
    dsimp only
    rw [List.getElem?_append]
    split
    · exact sound.positive e
    · simp [List.getElem?_singleton]
  · rw [State.socketAt, State.made]
    dsimp only
    by_cases same : e = s.table.objects.length
    · subst same
      rw [List.getElem?_concat_length, Function.update_self, Function.update_self]
      rfl
    · have object : (s.table.objects ++ [some 1])[e]? = s.table.objects[e]? := by
        rw [List.getElem?_append]
        split
        · rfl
        · rw [List.getElem?_eq_none (by simp; omega), List.getElem?_eq_none (by omega)]
      rw [object, Function.update_of_ne same, Function.update_of_ne same, State.socketAt]

theorem Sound.update (sound : Sound s) {old : SocketDesc} (here : s.socketAt ndp = some old)
    (self : SocketDesc) :
    After (s.update ndp self) (Function.update s.socketAt ndp (some self)) := by
  obtain ⟨⟨n, object⟩, -⟩ := socketAt_eq_some.mp here
  refine ⟨⟨sound.ok, sound.positive⟩, funext fun e => ?_⟩
  rw [State.socketAt, State.update]
  dsimp only
  by_cases same : e = ndp
  · subst same
    rw [object, Function.update_self, Function.update_self]
    rfl
  · rw [Function.update_of_ne same, Function.update_of_ne same, State.socketAt]

theorem Sound.dropped (sound : Sound s) (inside : ndp < s.table.objects.length) :
    After (s.dropped ndp) (Function.update s.socketAt ndp none) := by
  refine ⟨⟨sound.ok, fun e => ?_⟩, funext fun e => ?_⟩
  · by_cases same : e = ndp
    · subst same
      simp [State.dropped, inside]
    · rw [State.dropped]
      dsimp only
      rw [List.getElem?_set_ne (Ne.symm same)]
      exact sound.positive e
  · rw [State.socketAt, State.dropped]
    dsimp only
    by_cases same : e = ndp
    · subst same
      rw [List.getElem?_set_self inside, Function.update_self]
      rfl
    · rw [List.getElem?_set_ne (Ne.symm same), Function.update_of_ne same, State.socketAt]

theorem After.withTable {sockets : Nat → Option SocketDesc} (after : After s sockets)
    {descTbl : DynArray Nat} (ok : descTbl.Ok) :
    After { s with table := { s.table with descTbl := descTbl } } sockets :=
  ⟨⟨ok, after.sound.positive⟩, after.eq⟩

end After

/-! ## Effects -/

variable {ctx : Context}

/-- The descriptor that a call works on. -/
structure Found (s : State) (d : Int) (ndp : Nat) (sock : SocketDesc) : Prop where
  lookup : s.lookup d = some ndp
  socket : s.socketAt ndp = some sock

/-- The wrappers that a call enters, and the sockets behind it. -/
inductive Effect (ctx : Context) (s : State) :
    SocketOp → List Call → (Nat → Option SocketDesc) → Prop where
  | none (op : SocketOp) : Effect ctx s op [] s.socketAt
  | opened (domain type protocol : Int) : Effect ctx s (.call (.socketOpen domain type protocol)) []
      (Function.update s.socketAt s.table.objects.length (some { ctx.junk with d := 0 }))
  | bound {d : Int} {ndp : Nat} {self : SocketDesc} (found : Found s d ndp self)
      (myaddr : BitVec 32) (addrlen : BitVec 64) :
      Effect ctx s (.call (.socketBind d myaddr addrlen)) []
        (Function.update s.socketAt ndp (some { self with
          myaddr := sysAddr ctx myaddr addrlen, myaddrlen := addrlen.setWidth 32 }))
  | listened {d backlog : Int} {ndp : Nat} {self : SocketDesc} (found : Found s d ndp self)
      (addrlen : BitVec 32) : Effect ctx s (.call (.socketListen d backlog)) [listenCall ctx self]
        (Function.update s.socketAt ndp (some { self with
          myaddrlen := addrlen
          d := if (ctx.ran (listenCall ctx self)).result > 0
            then (ctx.ran (listenCall ctx self)).result else self.d }))
  | acceptFailed {d : Int} {ndp : Nat} {self : SocketDesc} (found : Found s d ndp self)
      (addr : BitVec 32) (addrlen : BitVec 64)
      (failed : (ctx.ran (acceptCall ctx self (sysAddr ctx addr addrlen) addrlen)).result < 0) :
      Effect ctx s (.call (.socketAccept d addr addrlen))
        [acceptCall ctx self (sysAddr ctx addr addrlen) addrlen] s.socketAt
  | accepted {d : Int} {ndp : Nat} {self : SocketDesc} (found : Found s d ndp self)
      (addr : BitVec 32) (addrlen : BitVec 64)
      (ok : ¬ (ctx.ran (acceptCall ctx self (sysAddr ctx addr addrlen) addrlen)).result < 0) :
      Effect ctx s (.call (.socketAccept d addr addrlen))
        [acceptCall ctx self (sysAddr ctx addr addrlen) addrlen]
        (Function.update s.socketAt s.table.objects.length (some { ctx.junk with
          d := (ctx.ran (acceptCall ctx self (sysAddr ctx addr addrlen) addrlen)).result }))
  | connectFailed {d : Int} {ndp : Nat} {self : SocketDesc} (found : Found s d ndp self)
      (servaddr : BitVec 32) (addrlen : BitVec 64)
      (failed : (ctx.ran (connectCall ctx (sysAddr ctx servaddr addrlen) addrlen)).result < 0) :
      Effect ctx s (.call (.socketConnect d servaddr addrlen))
        [connectCall ctx (sysAddr ctx servaddr addrlen) addrlen] s.socketAt
  | connected {d : Int} {ndp : Nat} {self : SocketDesc} (found : Found s d ndp self)
      (servaddr : BitVec 32) (addrlen : BitVec 64)
      (ok : ¬ (ctx.ran (connectCall ctx (sysAddr ctx servaddr addrlen) addrlen)).result < 0) :
      Effect ctx s (.call (.socketConnect d servaddr addrlen))
        [connectCall ctx (sysAddr ctx servaddr addrlen) addrlen]
        (Function.update s.socketAt ndp (some { self with
          d := (ctx.ran (connectCall ctx (sysAddr ctx servaddr addrlen) addrlen)).result }))
  | hasRead {d : Int} {ndp : Nat} {self : SocketDesc} (found : Found s d ndp self)
      (buf count : BitVec 32) (sysaddr : Nat) (n : UInt32)
      (range : naClUserToSysAddrRange ctx.nap buf.toNat count.toNat = some sysaddr) :
      Effect ctx s (.read d buf count) [.read self.d sysaddr n ctx.transfer] s.socketAt
  | hasWritten {d : Int} {ndp : Nat} {self : SocketDesc} (found : Found s d ndp self)
      (buf count : BitVec 32) (sysaddr : Nat) (n : UInt32)
      (range : naClUserToSysAddrRange ctx.nap buf.toNat count.toNat = some sysaddr) :
      Effect ctx s (.write d buf count) [.write self.d sysaddr n ctx.sent] s.socketAt
  | destroyed {d : Int} {ndp : Nat} {self : SocketDesc} (found : Found s d ndp self)
      (last : s.count ndp = 1) (closed : ctx.closed = 0) :
      Effect ctx s (.close d) [.close self.d ctx.closed]
        (Function.update s.socketAt ndp Option.none)

section Lookup

variable {s : State} {d : Int}

/-- A call that returns has found nothing, or a live object, and has taken a reference. -/
theorem lookup_inv (sound : Sound s) {f : Option Nat → Sys Int} {retval : Int}
    (returned : ((naClAppGetDesc d >>= f).at_ s).result = .ok retval) :
    (s.lookup d = none ∧ (naClAppGetDesc d >>= f).at_ s = (f none).at_ s) ∨
      ∃ ndp n, s.lookup d = some ndp ∧ s.table.objects[ndp]? = some (some n) ∧ n ≠ 0 ∧
        (naClAppGetDesc d >>= f).at_ s = (f (some ndp)).at_ (s.setCount ndp (n + 1)) := by
  cases here : s.lookup d with
  | none =>
    refine Or.inl ⟨rfl, ?_⟩
    rw [bind_at_ok (naClAppGetDesc_unknown sound.ok here)]
    rfl
  | some ndp =>
    have stopped : ∀ why, naClAppGetDescMu s.table d = .error why → False := by
      intro why stopped
      have error : (naClAppGetDesc d).at_ s = ⟨.error (.table why), s, []⟩ :=
        onTable_error (by rw [stopped]; rfl)
      rw [bind_at_error error] at returned
      cases returned
    have get : naClAppGetDescMu s.table d = (naClRefCountRef s.table.objects ndp).map
        fun objects => (some ndp, objects) := by
      rw [naClAppGetDescMu, sound.ok.get, show s.table.descTbl.slot (index d) = some ndp from here]
    rw [get, naClRefCountRef] at stopped
    have alive : ∃ n, s.table.objects[ndp]? = some (some n) ∧ (n + 1) % 2 ^ 64 ≠ 0 := by
      split at stopped
      · next n object =>
        refine ⟨n, object, fun full => ?_⟩
        rw [if_pos full] at stopped
        exact stopped _ rfl
      · exact (stopped _ rfl).elim
    obtain ⟨n, object, fits⟩ := alive
    refine Or.inr ⟨ndp, n, rfl, object, ?_, ?_⟩
    · rintro rfl
      exact sound.positive ndp object
    · rw [bind_at_ok (naClAppGetDesc_alive sound.ok here object fits)]
      rfl

end Lookup

/-- A call that returns has one of the effects. -/
def Does (ctx : Context) (s : State) (op : SocketOp) : Prop :=
  ∀ retval, ((op.run ctx).at_ s).result = .ok retval →
    ∃ sockets, Effect ctx s op ((op.run ctx).at_ s).events sockets ∧
      After ((op.run ctx).at_ s).state sockets

section Does

variable {s : State} {d : Int} {ndp n : Nat} {op : SocketOp}

theorem does_none {o : Outcome State Call (Except Stop Int)} (outcome : (op.run ctx).at_ s = o)
    (events : o.events = []) (after : After o.state s.socketAt) :
    ∃ sockets, Effect ctx s op ((op.run ctx).at_ s).events sockets ∧
      After ((op.run ctx).at_ s).state sockets := by
  rw [outcome, events]
  exact ⟨_, .none op, after⟩

theorem does_open (sound : Sound s) (domain type protocol : Int) :
    Does ctx s (.call (.socketOpen domain type protocol)) := by
  intro retval returned
  change ((naClSysSocketOpen ctx domain type protocol).at_ s).result = _ at returned
  by_cases refused : domain ≠ afInet ∨ type ≠ sockStream ∨ protocol ≠ ipprotoTcp
  · exact does_none (o := ⟨.ok (-naClAbiESOCKTNOSUPPORT), s, []⟩)
      (congrArg (Sys.at_ · s) (if_pos refused)) rfl ⟨sound, rfl⟩
  · have made : (naClDescSocketDescMake ctx).at_ s =
      ⟨.ok s.table.objects.length, s.made { ctx.junk with d := 0 }, []⟩ := rfl
    have after := sound.made { ctx.junk with d := 0 }
    have run : (naClSysSocketOpen ctx domain type protocol).at_ s = _ :=
      (congrArg (Sys.at_ · s) (if_neg refused)).trans (bind_at_ok made)
    rw [run] at returned
    change ∃ sockets, Effect ctx s _ ((naClSysSocketOpen ctx domain type protocol).at_ s).events
      sockets ∧ After ((naClSysSocketOpen ctx domain type protocol).at_ s).state sockets
    rw [run]
    cases naClAppSetDescAvail_at after.sound.ok s.table.objects.length with
    | inl stopped =>
      obtain ⟨why, stopped⟩ := stopped
      rw [stopped] at returned
      cases returned
    | inr stored =>
      obtain ⟨pos, descTbl, stored, ok⟩ := stored
      rw [stored]
      exact ⟨_, .opened domain type protocol, after.withTable ok⟩

theorem found_of_socket {self : SocketDesc} (here : s.lookup d = some ndp)
    (object : s.table.objects[ndp]? = some (some n)) (kind : s.descs ndp = .socket self) :
    Found s d ndp self := ⟨here, socketAt_eq_some.mpr ⟨⟨n, object⟩, kind⟩⟩

theorem does_bind (sound : Sound s) (myaddr : BitVec 32) (addrlen : BitVec 64) :
    Does ctx s (.call (.socketBind d myaddr addrlen)) := by
  intro retval returned
  cases lookup_inv sound returned with
  | inl unknown => exact does_none unknown.2 rfl ⟨sound, rfl⟩
  | inr found =>
    obtain ⟨ndp, n, here, object, -, run⟩ := found
    have counted := sound.setCount object (Nat.succ_ne_zero n)
    rw [bind_at_ok (x := get) rfl] at run
    cases kind : (s.setCount ndp (n + 1)).descs ndp with
    | other =>
      rw [kind] at run
      exact does_none run rfl counted
    | socket self =>
      rw [kind] at run
      have found := found_of_socket here object kind
      have after := counted.sound.update ((congrFun counted.eq ndp).trans found.socket)
        { self with myaddr := sysAddr ctx myaddr addrlen, myaddrlen := addrlen.setWidth 32 }
      rw [counted.eq] at after
      change ∃ sockets, Effect ctx s _ ((naClSysSocketBind ctx d myaddr addrlen).at_ s).events
        sockets ∧ After ((naClSysSocketBind ctx d myaddr addrlen).at_ s).state sockets
      rw [naClSysSocketBind, run]
      exact ⟨_, .bound found myaddr addrlen, after⟩

theorem does_listen (sound : Sound s) (backlog : Int) :
    Does ctx s (.call (.socketListen d backlog)) := by
  intro retval returned
  cases lookup_inv sound returned with
  | inl unknown => exact does_none unknown.2 rfl ⟨sound, rfl⟩
  | inr found =>
    obtain ⟨ndp, n, here, object, -, run⟩ := found
    have counted := sound.setCount object (Nat.succ_ne_zero n)
    rw [bind_at_ok (x := get) rfl] at run
    cases kind : (s.setCount ndp (n + 1)).descs ndp with
    | other =>
      rw [kind] at run
      exact does_none run rfl counted
    | socket self =>
      rw [kind] at run
      have found := found_of_socket here object kind
      have after := fun self' =>
        counted.sound.update ((congrFun counted.eq ndp).trans found.socket) self'
      rw [counted.eq] at after
      change ∃ sockets, Effect ctx s _ ((naClSysSocketListen ctx d backlog).at_ s).events
        sockets ∧ After ((naClSysSocketListen ctx d backlog).at_ s).state sockets
      rw [naClSysSocketListen, run]
      exact ⟨_, .listened found _, after _⟩

end Does

section Does

variable {s : State} {d : Int} {ndp n : Nat} {op : SocketOp}

/-- The end of a call that gives its reference back. -/
theorem unref_after {t : State} {sockets : Nat → Option SocketDesc} (after : After t sockets)
    (object : t.table.objects[ndp]? = some (some (n + 1))) (more : n ≠ 0) (retval : Int) :
    (naClDescUnref ctx (some ndp) >>= fun _ => (pure retval : Sys Int)).at_ t =
      ⟨.ok retval, t.setCount ndp n, []⟩ ∧ After (t.setCount ndp n) sockets := by
  refine ⟨(unref_count object more retval).1, ?_⟩
  have kept := after.sound.setCount object more
  rwa [after.eq] at kept

theorem does_accept (sound : Sound s) (addr : BitVec 32) (addrlen : BitVec 64) :
    Does ctx s (.call (.socketAccept d addr addrlen)) := by
  intro retval returned
  cases lookup_inv sound returned with
  | inl unknown => exact does_none unknown.2 rfl ⟨sound, rfl⟩
  | inr found =>
    obtain ⟨ndp, n, here, object, more, run⟩ := found
    have counted := sound.setCount object (Nat.succ_ne_zero n)
    have object' : (s.setCount ndp (n + 1)).table.objects[ndp]? = some (some (n + 1)) :=
      List.getElem?_set_self (List.getElem?_eq_some_iff.mp object).1
    rw [bind_at_ok (x := get) rfl] at run
    cases kind : (s.setCount ndp (n + 1)).descs ndp with
    | other =>
      rw [kind, bind_at_ok (x := (pure (.error (-naClAbiEINVAL)) : Sys (Except Int Nat)))
        rfl] at run
      obtain ⟨done, after⟩ := unref_after counted object' more (-naClAbiEINVAL)
      dsimp only at run
      rw [done] at run
      exact does_none run rfl after
    | socket self =>
      rw [kind] at run
      have found := found_of_socket here object kind
      have accepted := @naClDescSocketAccept_at ctx (s.setCount ndp (n + 1)) self
        (sysAddr ctx addr addrlen) addrlen
      change ∃ sockets, Effect ctx s _ ((naClSysSocketAccept ctx d addr addrlen).at_ s).events
        sockets ∧ After ((naClSysSocketAccept ctx d addr addrlen).at_ s).state sockets
      change ((naClSysSocketAccept ctx d addr addrlen).at_ s).result = _ at returned
      rw [naClSysSocketAccept] at returned ⊢
      split at accepted
      · next failed =>
        rw [bind_at_ok accepted] at run
        obtain ⟨done, after⟩ := unref_after counted object' more (-naClAbiEINVAL)
        dsimp only at run
        rw [done] at run
        rw [run]
        exact ⟨_, .acceptFailed found addr addrlen failed, after⟩
      · next ok =>
        rw [bind_at_ok accepted] at run
        dsimp only at run
        have made := counted.sound.made { ctx.junk with
          d := (ctx.ran (acceptCall ctx self (sysAddr ctx addr addrlen) addrlen)).result }
        rw [counted.eq] at made
        cases naClAppSetDescAvail_at made.sound.ok
            (s.setCount ndp (n + 1)).table.objects.length with
        | inl stopped =>
          obtain ⟨why, stopped⟩ := stopped
          rw [bind_at_error stopped] at run
          rw [run] at returned
          cases returned
        | inr stored =>
          obtain ⟨pos, descTbl, stored, ok'⟩ := stored
          rw [bind_at_ok stored] at run
          dsimp only at run
          have object'' : ((s.setCount ndp (n + 1)).table.objects ++ [some 1])[ndp]? =
              some (some (n + 1)) := by
            rw [List.getElem?_append_left (List.getElem?_eq_some_iff.mp object').1, object']
          obtain ⟨done, after⟩ := unref_after (made.withTable ok') object'' more pos
          rw [done] at run
          rw [run]
          have length : (s.setCount ndp (n + 1)).table.objects.length = s.table.objects.length :=
            List.length_set
          rw [length] at after
          exact ⟨_, .accepted found addr addrlen ok, after⟩

theorem does_connect (sound : Sound s) (servaddr : BitVec 32) (addrlen : BitVec 64) :
    Does ctx s (.call (.socketConnect d servaddr addrlen)) := by
  intro retval returned
  have inv := lookup_inv sound returned
  change ((naClSysSocketConnect ctx d servaddr addrlen).at_ s).result = _ at returned
  rw [naClSysSocketConnect] at returned
  cases inv with
  | inl unknown =>
    rw [unknown.2] at returned
    cases returned
  | inr found =>
    obtain ⟨ndp, n, here, object, more, run⟩ := found
    have counted := sound.setCount object (Nat.succ_ne_zero n)
    have object' : (s.setCount ndp (n + 1)).table.objects[ndp]? = some (some (n + 1)) :=
      List.getElem?_set_self (List.getElem?_eq_some_iff.mp object).1
    rw [bind_at_ok (x := get) rfl] at run
    cases kind : (s.setCount ndp (n + 1)).descs ndp with
    | other =>
      rw [kind, bind_at_ok (x := (pure (-naClAbiEINVAL) : Sys Int)) rfl] at run
      obtain ⟨done, after⟩ := unref_after counted object' more (-naClAbiEINVAL)
      rw [done] at run
      exact does_none run rfl after
    | socket self =>
      rw [kind] at run
      have found := found_of_socket here object kind
      have connected := @naClDescSocketConnect_at ctx (s.setCount ndp (n + 1)) ndp self
        (sysAddr ctx servaddr addrlen) addrlen
      change ∃ sockets, Effect ctx s _ ((naClSysSocketConnect ctx d servaddr addrlen).at_ s).events
        sockets ∧ After ((naClSysSocketConnect ctx d servaddr addrlen).at_ s).state sockets
      rw [naClSysSocketConnect]
      split at connected
      · next failed =>
        rw [bind_at_ok connected] at run
        obtain ⟨done, after⟩ := unref_after counted object' more (-naClAbiEINVAL)
        rw [done] at run
        rw [run]
        exact ⟨_, .connectFailed found servaddr addrlen failed, after⟩
      · next ok =>
        rw [bind_at_ok connected] at run
        have updated := counted.sound.update ((congrFun counted.eq ndp).trans found.socket)
          { self with d := (ctx.ran (connectCall ctx (sysAddr ctx servaddr addrlen) addrlen)).result }
        rw [counted.eq] at updated
        obtain ⟨done, after⟩ := unref_after updated object' more 0
        rw [done] at run
        rw [run]
        exact ⟨_, .connected found servaddr addrlen ok, after⟩

end Does

section Does

variable {s : State} {d : Int} {ndp n : Nat} {op : SocketOp}

/-- `NaClSysRead` and `NaClSysWrite`. -/
theorem does_transfer (sound : Sound s) (buf count : BitVec 32)
    (call : SocketDesc → Nat → UInt32 → Call) (same : op.run ctx =
      naClSysTransfer ctx (fun self buf n => ocall ctx (call self buf n)) d buf count)
    (effect : ∀ {ndp self sysaddr} (n), Found s d ndp self →
      naClUserToSysAddrRange ctx.nap buf.toNat count.toNat = some sysaddr →
      Effect ctx s op [call self sysaddr n] s.socketAt) : Does ctx s op := by
  intro retval returned
  rw [same] at returned
  cases lookup_inv sound returned with
  | inl unknown => exact does_none ((congrArg (Sys.at_ · s) same).trans unknown.2) rfl ⟨sound, rfl⟩
  | inr found =>
    obtain ⟨ndp, n, here, object, more, run⟩ := found
    have counted := sound.setCount object (Nat.succ_ne_zero n)
    have object' : (s.setCount ndp (n + 1)).table.objects[ndp]? = some (some (n + 1)) :=
      List.getElem?_set_self (List.getElem?_eq_some_iff.mp object).1
    have done := fun retval => @unref_after ctx _ _ _ _ counted object' more retval
    have run := (congrArg (Sys.at_ · s) same).trans run
    cases range : naClUserToSysAddrRange ctx.nap buf.toNat count.toNat with
    | none =>
      rw [range] at run
      exact does_none (run.trans (done _).1) rfl (done 0).2
    | some sysaddr =>
      rw [range] at run
      dsimp only at run
      rw [bind_at_ok (x := get) rfl] at run
      cases kind : (s.setCount ndp (n + 1)).descs ndp with
      | other =>
        rw [kind, bind_at_ok (x := (pure ctx.other : Sys Int)) rfl,
          (done ctx.other).1] at run
        exact does_none run rfl (done 0).2
      | socket self =>
        generalize UInt32.ofBitVec _ = amount at run
        rw [kind, bind_at_ok (x := ocall ctx (call self sysaddr amount)) rfl, (done _).1] at run
        rw [run]
        exact ⟨_, effect amount (found_of_socket here object kind) range, (done 0).2⟩

theorem ran_close (d ret : Int) : (ctx.ran (.close d ret)).result = ret := rfl

theorem unref_last {t : State} (object : t.table.objects[ndp]? = some (some 1)) :
    (naClDescUnref ctx (some ndp)).at_ t = (destroy ctx ndp).at_ (t.dropped ndp) := by
  have unref : naClRefCountUnref t.table.objects ndp = .ok (t.table.objects.set ndp none) := by
    rw [naClRefCountUnref, object]
    rfl
  have dropped : (onTable fun t => (naClRefCountUnref t.objects ndp).map fun objects =>
      ((), { t with objects := objects })).at_ t = ⟨.ok (), t.dropped ndp, []⟩ :=
    onTable_ok (by rw [unref]; rfl)
  have gone : (t.dropped ndp).table.objects[ndp]? = some none :=
    List.getElem?_set_self (List.getElem?_eq_some_iff.mp object).1
  rw [naClDescUnref, bind_at_ok dropped, bind_at_ok rfl,
    if_pos gone]
  rfl

variable {sockets : Nat → Option SocketDesc} {t : State}

theorem unref_last_other (after : After t sockets) (object : t.table.objects[ndp]? = some (some 1))
    (kind : t.descs ndp = .other) (retval : Int) :
    (naClDescUnref ctx (some ndp) >>= fun _ => (pure retval : Sys Int)).at_ t =
      ⟨.ok retval, t.dropped ndp, []⟩ ∧ After (t.dropped ndp) sockets := by
  have destroyed := @unref_last ctx _ _ object
  have kind' : (t.dropped ndp).descs ndp = .other := kind
  rw [destroy, bind_at_ok (x := get) rfl, kind'] at destroyed
  have nothing : sockets ndp = none := by
    rw [← after.eq, State.socketAt, kind]
    exact ite_self none
  refine ⟨?_, ?_⟩
  · rw [bind_at_ok (destroyed.trans rfl)]
    rfl
  · have dropped := after.sound.dropped (List.getElem?_eq_some_iff.mp object).1
    rwa [after.eq, ← nothing, Function.update_eq_self] at dropped

/-- The destructor closes the host's descriptor; it does not return when that fails. -/
theorem unref_last_socket (after : After t sockets) (object : t.table.objects[ndp]? = some (some 1))
    {self : SocketDesc} (kind : t.descs ndp = .socket self) (retval : Int) :
    (naClDescUnref ctx (some ndp) >>= fun _ => (pure retval : Sys Int)).at_ t =
      (if ctx.closed ≠ 0 then ⟨.error (.table .fatal), t.dropped ndp, [.close self.d ctx.closed]⟩
      else ⟨.ok retval, t.dropped ndp, [.close self.d ctx.closed]⟩) ∧
      After (t.dropped ndp) (Function.update sockets ndp none) := by
  have destroyed := @unref_last ctx _ _ object
  have kind' : (t.dropped ndp).descs ndp = .socket self := kind
  rw [destroy, bind_at_ok (x := get) rfl, kind',
    bind_at_ok (x := ocall ctx (.close self.d ctx.closed)) rfl, ran_close] at destroyed
  refine ⟨?_, ?_⟩
  · by_cases failed : ctx.closed ≠ 0
    · rw [if_pos failed] at destroyed ⊢
      exact bind_at_error (destroyed.trans rfl)
    · rw [if_neg failed] at destroyed ⊢
      rw [bind_at_ok (destroyed.trans rfl)]
      rfl
  · have dropped := after.sound.dropped (List.getElem?_eq_some_iff.mp object).1
    rwa [after.eq] at dropped

/-- The slot is emptied; it held a reference besides the one that was taken. -/
theorem closeSlot_at (ok : t.table.descTbl.Ok) (here : t.lookup d = some ndp)
    (object : t.table.objects[ndp]? = some (some (n + 1))) (more : n ≠ 0) :
    (∃ why, (onTable fun t => (naClAppSetDescMu false t (index d) none).map fun t => ((), t)).at_ t =
      ⟨.error why, t, []⟩) ∨
    ∃ descTbl, (onTable fun t => (naClAppSetDescMu false t (index d) none).map fun t =>
        ((), t)).at_ t = ⟨.ok (), { t.setCount ndp n with
          table := { (t.setCount ndp n).table with descTbl := descTbl } }, []⟩ ∧ descTbl.Ok := by
  have unref : naClRefCountUnref t.table.objects ndp = .ok (t.table.objects.set ndp (some n)) := by
    rw [naClRefCountUnref, object]
    simp [more]
  have slot : t.table.descTbl.slot (index d) = some ndp := here
  cases assigned : dynArraySet false t.table.descTbl (index d) none with
  | none =>
    have set : naClAppSetDescMu false t.table (index d) none = .error .fatal := by
      simp only [naClAppSetDescMu, ok.get, slot, naClDescSafeUnref, unref, assigned]
    exact Or.inl ⟨_, onTable_error (by rw [set]; rfl)⟩
  | some descTbl =>
    have set : naClAppSetDescMu false t.table (index d) none = .ok { t.table with
        descTbl := descTbl, objects := t.table.objects.set ndp (some n) } := by
      simp only [naClAppSetDescMu, ok.get, slot, naClDescSafeUnref, unref, assigned]
    exact Or.inr ⟨descTbl, onTable_ok (by rw [set]; rfl), (dynArraySet_spec ok assigned).1⟩

theorem does_close (sound : Sound s) : Does ctx s (.close d) := by
  intro retval returned
  have inv := lookup_inv sound returned
  change ((naClSysClose ctx d).at_ s).result = _ at returned
  change ∃ sockets, Effect ctx s _ ((naClSysClose ctx d).at_ s).events sockets ∧
    After ((naClSysClose ctx d).at_ s).state sockets
  rw [naClSysClose] at returned ⊢
  cases inv with
  | inl unknown => exact does_none unknown.2 rfl ⟨sound, rfl⟩
  | inr found =>
    obtain ⟨ndp, n, here, object, more, run⟩ := found
    obtain ⟨m, rfl⟩ := Nat.exists_eq_succ_of_ne_zero more
    have inside := (List.getElem?_eq_some_iff.mp object).1
    have counted := sound.setCount object (Nat.succ_ne_zero (m + 1))
    have object' : (s.setCount ndp (m + 2)).table.objects[ndp]? = some (some (m + 2)) :=
      List.getElem?_set_self inside
    cases closeSlot_at (d := d) counted.sound.ok here object' (Nat.succ_ne_zero m) with
    | inl stopped =>
      obtain ⟨why, stopped⟩ := stopped
      rw [bind_at_error stopped] at run
      rw [run] at returned
      cases returned
    | inr closed =>
      obtain ⟨descTbl, closed, ok⟩ := closed
      rw [bind_at_ok closed] at run
      dsimp only at run
      -- the reference that was taken is left
      have left := counted.sound.setCount object' (Nat.succ_ne_zero m)
      rw [counted.eq] at left
      have left := left.withTable ok
      have object'' : ((s.setCount ndp (m + 2)).setCount ndp (m + 1)).table.objects[ndp]? =
          some (some (m + 1)) := List.getElem?_set_self (List.getElem?_eq_some_iff.mp object').1
      cases m with
      | succ m =>
        obtain ⟨done, after⟩ := unref_after left object'' (Nat.succ_ne_zero m) 0
        rw [done] at run
        exact does_none run rfl after
      | zero =>
        have last : s.count ndp = 1 := by
          rw [State.count, refCount, object]
          rfl
        cases kind : s.descs ndp with
        | other =>
          obtain ⟨done, after⟩ := unref_last_other left object'' kind 0
          rw [done] at run
          exact does_none run rfl after
        | socket self =>
          obtain ⟨done, after⟩ := unref_last_socket left object'' kind 0
          rw [done] at run
          by_cases failed : ctx.closed ≠ 0
          · rw [if_pos failed] at run
            rw [run] at returned
            cases returned
          · rw [if_neg failed] at run
            rw [run]
            exact ⟨_, .destroyed (found_of_socket here object kind) last (not_not.mp failed), after⟩

end Does

theorem run_effect {s : State} (sound : Sound s) (op : SocketOp) : Does ctx s op := by
  cases op with
  | call c =>
    cases c with
    | socketOpen domain type protocol => exact does_open sound domain type protocol
    | socketBind sockfd myaddr addrlen => exact does_bind sound myaddr addrlen
    | socketListen sockfd backlog => exact does_listen sound backlog
    | socketAccept sockfd addr addrlen => exact does_accept sound addr addrlen
    | socketConnect sockfd servaddr addrlen => exact does_connect sound servaddr addrlen
  | read d buf count =>
    exact does_transfer sound buf count (fun self buf n => .read self.d buf n ctx.transfer)
      rfl fun n found range => .hasRead found buf count _ n range
  | write d buf count =>
    exact does_transfer sound buf count (fun self buf n => .write self.d buf n ctx.sent)
      rfl fun n found range => .hasWritten found buf count _ n range
  | close d => exact does_close sound

end SandboxTEE.Socket
