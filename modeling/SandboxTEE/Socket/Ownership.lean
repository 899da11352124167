import SandboxTEE.Lib.ByteMemory
import SandboxTEE.Lib.Exclusive
import SandboxTEE.Socket.Effects

/-! # Who owns a host socket (`ocall_socket_u.c`)

The host side of the wrappers opens and closes sockets in the host process.  As long as every
call meets a condition (`InOrder`), each of these sockets has exactly one descriptor of the enclave
to it, which alone uses it and closes it when it is destroyed (`sockets_owned`).
-/

namespace SandboxTEE.Socket

open SandboxTEE.Lib (Outcome Exclusive bytesAt foldlM_invariant)
open SandboxTEE.Runtime
open SandboxTEE.Xcall.Frames (Call Access)

/-! ## The host -/

/-- The descriptors of the host process: its own, and the sockets opened for the enclave. -/
structure Kernel where
  files : Finset Int
  sockets : Finset Int

namespace Kernel

/-- A number that the kernel may give to a new descriptor. -/
def Fresh (k : Kernel) (fd : Int) : Prop := 0 ≤ fd ∧ fd ∉ k.files ∧ fd ∉ k.sockets

instance (k : Kernel) (fd : Int) : Decidable (k.Fresh fd) := inferInstanceAs (Decidable (_ ∧ _))

def opened (k : Kernel) (fd : Int) : Kernel := { k with sockets := insert fd k.sockets }

def close (k : Kernel) (fd : Int) : Kernel := ⟨k.files.erase fd, k.sockets.erase fd⟩

end Kernel

/-- What the kernel answers to the system calls of the host side. -/
structure Answers where
  /-- `socket` and `accept4`; `none` is -1. -/
  socket : Option Int
  setV6only : Bool
  setReuseaddr : Bool
  bind : Bool
  listen : Bool
  /-- `connect`, and `ppoll` where it is needed. -/
  connect : Bool
  /-- What lies behind an address in the memory of the host. -/
  behind : List (BitVec 8)

/-- `AF_INET6` in the first two bytes. -/
def isInet6 (a : Answers) (addr : List (BitVec 8)) : Prop := (addr ++ a.behind).take 2 = [10, 0]

instance (a : Answers) (addr : List (BitVec 8)) : Decidable (isInet6 a addr) :=
  inferInstanceAs (Decidable (_ = _))

/-- After a failed `setsockopt` the socket stays open. -/
def sgxOcallSockListen (a : Answers) (k : Kernel) (addr : List (BitVec 8)) : Int × Kernel :=
  match a.socket with
  | none => (-1, k)
  | some fd =>
    let k := k.opened fd
    if isInet6 a addr ∧ a.setV6only = false then (-1, k)
    else if a.setReuseaddr = false then (-1, k)
    else if a.bind = false then (-1, k.close fd)
    else if a.listen = false then (-1, k.close fd)
    else (fd, k)

def sgxOcallSockAccept (a : Answers) (k : Kernel) : Int × Kernel :=
  match a.socket with
  | none => (-1, k)
  | some fd => (fd, k.opened fd)

/-- There is no address to bind to. -/
def sgxOcallSockConnect (a : Answers) (k : Kernel) : Int × Kernel :=
  match a.socket with
  | none => (-1, k)
  | some fd =>
    let k := k.opened fd
    if a.connect = false then (-1, k.close fd) else (fd, k)

/-! ## Runs -/

/-- A call, what is around it, and the memory of the module then. -/
structure Action where
  ctx : Context
  answers : Answers
  mem : Nat → BitVec 8
  op : SocketOp

structure World where
  state : State
  kernel : Kernel
  /-- The address given to the last `NaClSysSocketBind` of a descriptor. -/
  given : Nat → Option (List (BitVec 8))

def Action.outcome (a : Action) (s : State) : Outcome State Call (Except Stop Int) :=
  (a.op.run a.ctx).at_ s

def isCopyOut : Access → Bool
  | .copyOut .. => true
  | _ => false

/-- The address that the host gets, unless the wrapper refuses to copy it. -/
def Action.hostAddress (a : Action) (c : Call) : Option (List (BitVec 8)) :=
  if (a.ctx.ran c).events.any isCopyOut then
    match c with
    | .sockListen _ _ _ addr addrlen _ => some (bytesAt a.mem addr addrlen.value)
    | .sockConnect _ _ _ addr addrlen _ _ _ => some (bytesAt a.mem addr addrlen.toNat)
    | _ => none
  else none

/-- The host serves a wrapper; `none` is an answer that it does not give, or its crash on an
    address that is missing. -/
def Action.serve (a : Action) (k : Kernel) (c : Call) : Option Kernel :=
  match c with
  | .sockListen _ _ _ _ _ r => do
    let addr ← a.hostAddress c
    let out := sgxOcallSockListen a.answers k addr
    if r.ret = out.1 then some out.2 else none
  | .sockConnect _ _ _ _ _ _ _ r => do
    let _ ← a.hostAddress c
    let out := sgxOcallSockConnect a.answers k
    if r.ret = out.1 then some out.2 else none
  | .sockAccept _ _ _ r =>
    let out := sgxOcallSockAccept a.answers k
    if r.ret = out.1 then some out.2 else none
  | .close fd ret => if ret = 0 ∧ fd ∉ k.files ∧ fd ∉ k.sockets then none else some (k.close fd)
  | _ => some k

/-- `NaClSysSocketBind` of a socket. -/
def Action.givenAfter (a : Action) (w : World) : Nat → Option (List (BitVec 8)) :=
  match a.op with
  | .call (.socketBind d myaddr addrlen) =>
    match w.state.lookup d with
    | some ndp => Function.update w.given ndp
        ((naClUserToSysAddrRange a.ctx.nap myaddr.toNat addrlen.toNat).map fun addr =>
          bytesAt a.mem addr addrlen.toNat)
    | none => w.given
  | _ => w.given

/-- `none` where the enclave or the host does not go on, or the kernel gives a number away that is
    in use. -/
def step (w : World) (a : Action) : Option World :=
  match (a.outcome w.state).result with
  | .error _ => none
  | .ok _ =>
    if ∀ fd ∈ a.answers.socket, w.kernel.Fresh fd then
      ((a.outcome w.state).events.foldlM a.serve w.kernel).map fun kernel =>
        ⟨(a.outcome w.state).state, kernel, a.givenAfter w⟩
    else none

/-! ## What is asked of a run -/

/-- Every host socket has exactly one live descriptor to it. -/
def Owned (w : World) : Prop :=
  ∀ fd ∈ w.kernel.sockets, ∃! ndp, ∃ self, w.state.socketAt ndp = some self ∧ self.d = fd

/-- The descriptor of the host that a wrapper uses. -/
def usedBy : Call → Option Int
  | .read fd _ _ _ | .write fd _ _ _ | .sockAccept fd _ _ _ | .close fd _ => some fd
  | _ => none

def isClose : Call → Bool
  | .close .. => true
  | _ => false

def isListen : Call → Bool
  | .sockListen .. => true
  | _ => false

structure Proper (w : World) (a : Action) (w' : World) : Prop where
  /-- A host socket is used through the descriptor that owns it. -/
  uses : ∀ c ∈ (a.outcome w.state).events, ∀ fd, usedBy c = some fd → fd ∈ w.kernel.sockets ∧
    ∃ d ndp self, a.op.named = some d ∧ Found w.state d ndp self ∧ self.d = fd
  /-- It is closed once when its descriptor is destroyed, and stays with it until then. -/
  closes : ∀ ndp self, w.state.socketAt ndp = some self → self.d ∈ w.kernel.sockets →
    (w'.state.socketAt ndp = none ∧ (a.outcome w.state).events = [.close self.d 0] ∧
      self.d ∉ w'.kernel.sockets) ∨
    ((∃ self', w'.state.socketAt ndp = some self' ∧ self'.d = self.d) ∧
      self.d ∈ w'.kernel.sockets ∧ ∀ ret, .close self.d ret ∉ (a.outcome w.state).events)
  /-- The host listens at the address that was bound. -/
  listens : ∀ c ∈ (a.outcome w.state).events, isListen c = true →
    ∃ d ndp self addr, a.op.named = some d ∧ Found w.state d ndp self ∧
      a.hostAddress c = some addr ∧ w.given ndp = some addr

/-- The host socket that a call on a socket descriptor `ndp` needs, and what the host may not
    answer. -/
def InOrderFor (w : World) (a : Action) (ndp : Nat) (self : SocketDesc) : Prop :=
  match a.op with
  | .call (.socketOpen ..) | .call (.socketBind ..) => True
  | .call (.socketListen ..) =>
    -- the address that was bound is still in the memory of the module
    w.given ndp = some (bytesAt a.mem self.myaddr self.myaddrlen.toNat) ∧
    ∀ fd ∈ a.answers.socket,
      -- the options can be set
      ¬ (isInet6 a.answers (bytesAt a.mem self.myaddr self.myaddrlen.toNat) ∧
        a.answers.setV6only = false) ∧ a.answers.setReuseaddr = true ∧
      -- what comes out is stored, and nothing is overwritten
      (a.answers.bind = true → a.answers.listen = true → fd ≠ 0 ∧ self.d = 0 ∧
        ¬ (Xcall.sgxIsCompletelyWithinEnclave a.ctx.e a.ctx.peer.addrChecked
            self.myaddrlen.toNat = true ∨ a.ctx.peer.addrlenChecked > self.myaddrlen.toNat))
  | .call (.socketAccept _ _ addrlen) => self.d ≠ 0 ∧ ∀ fd ∈ a.answers.socket, fd ≠ 0 ∧
    ¬ a.ctx.peer.toPeerReply.rejected a.ctx.e (addrlen.setWidth 32).toNat
  | .call (.socketConnect ..) => ∀ fd ∈ a.answers.socket, a.answers.connect = true →
    fd ≠ 0 ∧ self.d = 0
  | .read _ buf count | .write _ buf count =>
    naClUserToSysAddrRange a.ctx.nap buf.toNat count.toNat ≠ none → self.d ≠ 0
  | .close _ => w.state.count ndp = 1 → self.d ≠ 0

def InOrder (w : World) (a : Action) : Prop :=
  ∀ d ndp self, a.op.named = some d → Found w.state d ndp self → InOrderFor w a ndp self

/-! ## The invariant -/

/-- The host socket of a descriptor; 0 is none. -/
def holds (sockets : Nat → Option SocketDesc) (ndp : Nat) : Option Int :=
  (sockets ndp).bind fun self => if self.d = 0 then none else some self.d

variable {sockets : Nat → Option SocketDesc} {ndp : Nat}

theorem holds_eq_some {fd : Int} (nonzero : fd ≠ 0) :
    holds sockets ndp = some fd ↔ ∃ self, sockets ndp = some self ∧ self.d = fd := by
  rw [holds, Option.bind_eq_some_iff]
  refine exists_congr fun self => and_congr_right fun _ => ?_
  split
  · next zero => exact iff_of_false nofun fun same => nonzero (same.symm.trans zero)
  · exact Option.some_inj

theorem holds_of_socket {self : SocketDesc} (here : sockets ndp = some self)
    (nonzero : self.d ≠ 0) : holds sockets ndp = some self.d :=
  (holds_eq_some nonzero).mpr ⟨self, here, rfl⟩

theorem holds_update (sockets : Nat → Option SocketDesc) (ndp : Nat) (new : Option SocketDesc) :
    holds (Function.update sockets ndp new) = Function.update (holds sockets) ndp
      (new.bind fun self => if self.d = 0 then none else some self.d) := by
  funext e
  by_cases same : e = ndp
  · subst same
    rw [holds, Function.update_self, Function.update_self]
  · rw [holds, Function.update_of_ne same, Function.update_of_ne same, holds]

/-- Only `hd->d` matters. -/
theorem holds_update_same {self self' : SocketDesc} (here : sockets ndp = some self)
    (same : self'.d = self.d) :
    holds (Function.update sockets ndp (some self')) = holds sockets := by
  rw [holds_update]
  have now : holds sockets ndp = (some self').bind
      fun self => if self.d = 0 then none else some self.d := by
    rw [holds, here]
    simp [same]
  rw [← now, Function.update_eq_self]

structure Inv (w : World) : Prop where
  sound : Sound w.state
  exclusive : Exclusive (holds w.state.socketAt) w.kernel.sockets
  /-- 0 stands for no socket. -/
  zero : 0 ∉ w.kernel.sockets

variable {w : World}

theorem Inv.owned (inv : Inv w) : Owned w := by
  intro fd mem
  have nonzero : fd ≠ 0 := fun zero => inv.zero (zero ▸ mem)
  obtain ⟨ndp, held, unique⟩ := inv.exclusive.existsUnique mem
  refine ⟨ndp, (holds_eq_some nonzero).mp held, fun other here => unique other ?_⟩
  exact (holds_eq_some nonzero).mpr here

theorem socketAt_length (s : State) : s.socketAt s.table.objects.length = none := by
  rw [State.socketAt, List.getElem?_eq_none (Nat.le_refl _)]
  rfl

/-! ## One call -/

section Step

variable {w w' : World} {a : Action}

theorem step_inv (sound : Sound w.state) (stepped : step w a = some w') : ∃ sockets,
    Effect a.ctx w.state a.op (a.outcome w.state).events sockets ∧ After w'.state sockets ∧
      (a.outcome w.state).events.foldlM a.serve w.kernel = some w'.kernel ∧
      ∀ fd ∈ a.answers.socket, w.kernel.Fresh fd := by
  unfold step at stepped
  split at stepped
  · cases stepped
  · next retval returned =>
    split at stepped
    · next fresh =>
      obtain ⟨kernel, served, rfl⟩ := Option.map_eq_some_iff.mp stepped
      obtain ⟨sockets, effect, after⟩ := run_effect sound a.op retval returned
      exact ⟨sockets, effect, after, served, fresh⟩
    · cases stepped

theorem Inv.mem (inv : Inv w) {d : Int} {self : SocketDesc} (found : Found w.state d ndp self)
    (nonzero : self.d ≠ 0) : self.d ∈ w.kernel.sockets :=
  inv.exclusive.held ndp self.d (holds_of_socket found.socket nonzero)

/-- Nothing is closed, and no descriptor loses its host socket. -/
theorem closes_of_kept (inv : Inv w) (after : After w'.state sockets)
    (kept : ∀ ndp self, w.state.socketAt ndp = some self →
      self.d ≠ 0 → ∃ self', sockets ndp = some self' ∧ self'.d = self.d)
    (more : w.kernel.sockets ⊆ w'.kernel.sockets)
    (noClose : ∀ c ∈ (a.outcome w.state).events, isClose c = false) (ndp : Nat) (self : SocketDesc)
    (here : w.state.socketAt ndp = some self) (mem : self.d ∈ w.kernel.sockets) :
    (w'.state.socketAt ndp = none ∧ (a.outcome w.state).events = [.close self.d 0] ∧
      self.d ∉ w'.kernel.sockets) ∨
    ((∃ self', w'.state.socketAt ndp = some self' ∧ self'.d = self.d) ∧
      self.d ∈ w'.kernel.sockets ∧ ∀ ret, .close self.d ret ∉ (a.outcome w.state).events) := by
  have nonzero : self.d ≠ 0 := fun zero => inv.zero (zero ▸ mem)
  refine Or.inr ⟨?_, more mem, fun ret closes => ?_⟩
  · rw [after.eq]
    exact kept ndp self here nonzero
  · cases noClose _ closes

theorem kept_self (s : State) (ndp : Nat) (self : SocketDesc) (here : s.socketAt ndp = some self)
    (_ : self.d ≠ 0) : ∃ self', s.socketAt ndp = some self' ∧ self'.d = self.d :=
  ⟨self, here, rfl⟩

theorem kept_new (s : State) (new : SocketDesc) (ndp : Nat) (self : SocketDesc)
    (here : s.socketAt ndp = some self) (_ : self.d ≠ 0) : ∃ self',
      Function.update s.socketAt s.table.objects.length (some new) ndp = some self' ∧
        self'.d = self.d := by
  have other : ndp ≠ s.table.objects.length := by
    rintro rfl
    rw [socketAt_length] at here
    cases here
  exact ⟨self, by rw [Function.update_of_ne other, here], rfl⟩

/-- One socket changes; its host socket, if it has one, does not. -/
theorem kept_update {s : State} {old new : SocketDesc} (found : s.socketAt ndp = some old)
    (same : old.d ≠ 0 → new.d = old.d) (e : Nat) (self : SocketDesc)
    (here : s.socketAt e = some self) (nonzero : self.d ≠ 0) : ∃ self',
      Function.update s.socketAt ndp (some new) e = some self' ∧ self'.d = self.d := by
  by_cases eq : e = ndp
  · subst eq
    cases found.symm.trans here
    exact ⟨new, Function.update_self .., same nonzero⟩
  · exact ⟨self, by rw [Function.update_of_ne eq, here], rfl⟩

variable {k : Kernel}

/-- The host has nothing open besides what it had. -/
theorem Kernel.close_opened {fd : Int} (fresh : k.Fresh fd) : (k.opened fd).close fd = k := by
  rw [Kernel.opened, Kernel.close]
  dsimp only
  rw [Finset.erase_eq_of_notMem fresh.2.1, Finset.erase_insert fresh.2.2]

/-- With the options set, the host is left with a listening socket or with nothing. -/
theorem sgxOcallSockListen_cases {a : Answers} {addr : List (BitVec 8)}
    (fresh : ∀ fd ∈ a.socket, k.Fresh fd)
    (options : ∀ fd ∈ a.socket, ¬ (isInet6 a addr ∧ a.setV6only = false) ∧ a.setReuseaddr = true) :
    sgxOcallSockListen a k addr = (-1, k) ∨ ∃ fd ∈ a.socket, a.bind = true ∧ a.listen = true ∧
      sgxOcallSockListen a k addr = (fd, k.opened fd) := by
  unfold sgxOcallSockListen
  cases opened : a.socket with
  | none => exact Or.inl rfl
  | some fd =>
    have closed := Kernel.close_opened (fresh fd opened)
    obtain ⟨v6only, reuseaddr⟩ := options fd opened
    dsimp only
    rw [if_neg v6only, if_neg (by simp [reuseaddr]), closed]
    split
    · exact Or.inl rfl
    · next bound =>
      split
      · exact Or.inl rfl
      · next listens => exact Or.inr ⟨fd, rfl, by simpa using bound, by simpa using listens, rfl⟩

theorem sgxOcallSockConnect_cases {a : Answers} (fresh : ∀ fd ∈ a.socket, k.Fresh fd) :
    sgxOcallSockConnect a k = (-1, k) ∨ ∃ fd ∈ a.socket, a.connect = true ∧
      sgxOcallSockConnect a k = (fd, k.opened fd) := by
  unfold sgxOcallSockConnect
  cases opened : a.socket with
  | none => exact Or.inl rfl
  | some fd =>
    dsimp only
    rw [Kernel.close_opened (fresh fd opened)]
    split
    · exact Or.inl rfl
    · next connects => exact Or.inr ⟨fd, rfl, by simpa using connects, rfl⟩

theorem sgxOcallSockAccept_cases (a : Answers) (k : Kernel) :
    sgxOcallSockAccept a k = (-1, k) ∨ ∃ fd ∈ a.socket,
      sgxOcallSockAccept a k = (fd, k.opened fd) := by
  unfold sgxOcallSockAccept
  cases opened : a.socket with
  | none => exact Or.inl rfl
  | some fd => exact Or.inr ⟨fd, rfl, rfl⟩

end Step

/-! ### What the wrappers return -/

section Results

open SandboxTEE.Xcall.Frames (AddressCall)

variable (ctx : Context) (self : SocketDesc)

theorem result_listen : (ctx.ran (listenCall ctx self)).result =
    if ctx.peer.ret ≥ 0 ∧ (Xcall.sgxIsCompletelyWithinEnclave ctx.e ctx.peer.addrChecked
        self.myaddrlen.toNat = true ∨ ctx.peer.addrlenChecked > self.myaddrlen.toNat) then -1
    else ctx.peer.ret :=
  ((AddressCall.sockListen afInet sockStream ipprotoTcp self.myaddr
    (ctx.lenParam self.myaddrlen)).run_ends ctx.e ctx.peer.toPeerReply ctx.ustack).1

theorem result_accept (addr : Nat) (addrlen : BitVec 64) :
    (ctx.ran (acceptCall ctx self addr addrlen)).result =
      if ctx.peer.ret ≥ 0 ∧ ctx.peer.toPeerReply.rejected ctx.e (addrlen.setWidth 32).toNat then -1
      else ctx.peer.ret :=
  ((AddressCall.sockAccept self.d addr (some (ctx.lenParam (addrlen.setWidth 32)))).run_ends
    ctx.e ctx.peer.toPeerReply ctx.ustack).1

theorem result_connect (addr : Nat) (addrlen : BitVec 64) :
    (ctx.ran (connectCall ctx addr addrlen)).result = ctx.peer.ret := by
  have result := ((AddressCall.sockConnect afInet sockStream ipprotoTcp addr
    (UInt32.ofBitVec (addrlen.setWidth 32)) 0 none).run_ends ctx.e ctx.peer.toPeerReply
    ctx.ustack).1
  refine result.trans (if_neg ?_)
  rintro ⟨-, nonzero, -⟩
  exact nonzero rfl

end Results

/-! ### The effects -/

section Effects

variable {w w' : World} {a : Action} {d : Int} {ndp : Nat} {self : SocketDesc}

theorem Inv.same (inv : Inv w) (after : After w'.state sockets)
    (same : holds sockets = holds w.state.socketAt) (kernel : w'.kernel = w.kernel) : Inv w' where
  sound := after.sound
  exclusive := by
    rw [after.eq, same, kernel]
    exact inv.exclusive
  zero := by
    rw [kernel]
    exact inv.zero

/-- A descriptor without a host socket gets a new one. -/
theorem Inv.acquire (inv : Inv w) {new : SocketDesc} (fresh : w.kernel.Fresh new.d)
    (after : After w'.state (Function.update w.state.socketAt ndp (some new)))
    (idle : holds w.state.socketAt ndp = none) (nonzero : new.d ≠ 0)
    (kernel : w'.kernel = w.kernel.opened new.d) : Inv w' where
  sound := after.sound
  exclusive := by
    rw [after.eq, holds_update, kernel, Option.bind_some, if_neg nonzero]
    exact inv.exclusive.acquire idle fresh.2.2
  zero := by
    rw [kernel]
    intro mem
    cases Finset.mem_insert.mp mem with
    | inl same => exact nonzero same.symm
    | inr old => exact inv.zero old

theorem holds_idle (found : Found w.state d ndp self) (none : self.d = 0) :
    holds w.state.socketAt ndp = Option.none := by
  rw [holds, found.socket, Option.bind_some, if_pos none]

variable {c : Call}

/-- What one call of a wrapper makes of the host. -/
theorem served_one {k : Kernel} (served : [c].foldlM a.serve w.kernel = some k) :
    a.serve w.kernel c = some k := by
  rw [List.foldlM_cons] at served
  obtain ⟨k', first, rest⟩ := Option.bind_eq_some_iff.mp served
  cases rest
  exact first

theorem subset_opened (k : Kernel) (fd : Int) : k.sockets ⊆ (k.opened fd).sockets :=
  Finset.subset_insert ..

theorem mem_one {c' : Call} {events : List Call} (one : events = [c]) (mem : c' ∈ events) :
    c' = c := by
  rw [one] at mem
  exact List.mem_singleton.mp mem

theorem quiet (inv : Inv w) (after : After w'.state sockets)
    (same : holds sockets = holds w.state.socketAt) (kernel : w'.kernel = w.kernel)
    (kept : ∀ ndp self, w.state.socketAt ndp = some self → self.d ≠ 0 →
      ∃ self', sockets ndp = some self' ∧ self'.d = self.d)
    (events : (a.outcome w.state).events = []) : Inv w' ∧ Proper w a w' := by
  have nothing : ∀ c, c ∉ (a.outcome w.state).events := by
    rw [events]
    exact fun c => List.not_mem_nil
  refine ⟨inv.same after same kernel, fun c mem => absurd mem (nothing c), ?_,
    fun c mem => absurd mem (nothing c)⟩
  exact closes_of_kept inv after kept (by rw [kernel]) fun c mem => absurd mem (nothing c)

/-- The only wrapper that is entered uses no descriptor of the host. -/
theorem uses_of_none (events : (a.outcome w.state).events = [c]) (none : usedBy c = Option.none) :
    ∀ c' ∈ (a.outcome w.state).events, ∀ fd,
      usedBy c' = some fd → fd ∈ w.kernel.sockets ∧ ∃ d ndp self, a.op.named = some d ∧
        Found w.state d ndp self ∧ self.d = fd := by
  intro c' mem fd used
  rw [mem_one events mem, none] at used
  cases used

/-- It uses the host socket of the descriptor that is named. -/
theorem uses_of_found (inv : Inv w) (events : (a.outcome w.state).events = [c])
    (used : usedBy c = some self.d) (named : a.op.named = some d) (found : Found w.state d ndp self)
    (nonzero : self.d ≠ 0) :
    ∀ c' ∈ (a.outcome w.state).events, ∀ fd, usedBy c' = some fd → fd ∈ w.kernel.sockets ∧
      ∃ d ndp self, a.op.named = some d ∧ Found w.state d ndp self ∧ self.d = fd := by
  intro c' mem fd used'
  rw [mem_one events mem, used] at used'
  cases used'
  exact ⟨inv.mem found nonzero, d, ndp, self, named, found, rfl⟩

theorem listens_of_none (events : (a.outcome w.state).events = [c]) (none : isListen c = false) :
    ∀ c' ∈ (a.outcome w.state).events, isListen c' = true →
      ∃ d ndp self addr, a.op.named = some d ∧ Found w.state d ndp self ∧
        a.hostAddress c' = some addr ∧ w.given ndp = some addr := by
  intro c' mem listens
  rw [mem_one events mem, none] at listens
  cases listens

theorem noClose_of_one (events : (a.outcome w.state).events = [c]) (none : isClose c = false) :
    ∀ c' ∈ (a.outcome w.state).events, isClose c' = false := by
  intro c' mem
  rw [mem_one events mem, none]

end Effects

section Calls

variable {w w' : World} {a : Action} {d : Int} {ndp : Nat} {self : SocketDesc}

theorem listen_step (inv : Inv w) {backlog : Int} (op : a.op = .call (.socketListen d backlog))
    (order : InOrder w a) (found : Found w.state d ndp self)
    (events : (a.outcome w.state).events = [listenCall a.ctx self]) {addrlen : BitVec 32}
    (after : After w'.state (Function.update w.state.socketAt ndp (some { self with
      myaddrlen := addrlen
      d := if (a.ctx.ran (listenCall a.ctx self)).result > 0
        then (a.ctx.ran (listenCall a.ctx self)).result else self.d })))
    (served : a.serve w.kernel (listenCall a.ctx self) = some w'.kernel)
    (fresh : ∀ fd ∈ a.answers.socket, w.kernel.Fresh fd) : Inv w' ∧ Proper w a w' := by
  have named : a.op.named = some d := by rw [op]; rfl
  have order := order d ndp self named found
  rw [InOrderFor, op] at order
  obtain ⟨given, options⟩ := order
  -- the host got the bytes at the address
  obtain ⟨addr, copied, served⟩ := Option.bind_eq_some_iff.mp served
  have bytes : addr = bytesAt a.mem self.myaddr self.myaddrlen.toNat := by
    unfold Action.hostAddress at copied
    split at copied
    · exact (Option.some.inj copied).symm
    · cases copied
  have listens : ∀ c ∈ (a.outcome w.state).events, isListen c = true →
      ∃ d ndp self addr, a.op.named = some d ∧ Found w.state d ndp self ∧
        a.hostAddress c = some addr ∧ w.given ndp = some addr := by
    intro c mem _
    rw [mem_one events mem]
    exact ⟨d, ndp, self, addr, named, found, copied, by rw [given, bytes]⟩
  rw [Option.ite_none_right_eq_some] at served
  obtain ⟨ret, kernel⟩ := served
  have ret : a.ctx.peer.ret = _ := ret
  have kernel := (Option.some.inj kernel).symm
  have uses := uses_of_none events rfl
  rw [← bytes] at options
  cases sgxOcallSockListen_cases fresh
    (fun fd mem => ⟨(options fd mem).1, (options fd mem).2.1⟩) with
  | inl failed =>
    -- nothing is stored
    rw [failed] at ret kernel
    dsimp only at ret
    have result : (a.ctx.ran (listenCall a.ctx self)).result = -1 := by
      rw [result_listen, ret]
      exact if_neg fun rejected => absurd rejected.1 (by decide)
    rw [result, if_neg (by decide)] at after
    refine ⟨inv.same after (holds_update_same found.socket rfl) kernel, uses, ?_, listens⟩
    exact closes_of_kept inv after (kept_update found.socket fun _ => rfl) (by rw [kernel])
      (noClose_of_one events rfl)
  | inr opened =>
    obtain ⟨fd, mem, bound, listening, opened⟩ := opened
    obtain ⟨nonzero, idle, accepted⟩ := (options fd mem).2.2 bound listening
    have positive : fd > 0 := lt_of_le_of_ne (fresh fd mem).1 (Ne.symm nonzero)
    rw [opened] at ret kernel
    have result : (a.ctx.ran (listenCall a.ctx self)).result = fd := by
      rw [result_listen, ret]
      exact if_neg fun rejected => accepted rejected.2
    rw [result, if_pos positive] at after
    refine ⟨inv.acquire (fresh fd mem) after (holds_idle found idle) nonzero kernel, uses, ?_,
      listens⟩
    refine closes_of_kept inv after (kept_update found.socket fun some => absurd idle some) ?_
      (noClose_of_one events rfl)
    rw [kernel]
    exact subset_opened w.kernel fd

variable {addrlen : BitVec 64}

theorem accept_step (inv : Inv w) {addr : BitVec 32}
    (op : a.op = .call (.socketAccept d addr addrlen)) (order : InOrder w a)
    (found : Found w.state d ndp self)
    (events : (a.outcome w.state).events =
      [acceptCall a.ctx self (sysAddr a.ctx addr addrlen) addrlen]) (after : After w'.state sockets)
    (sockets_eq : sockets =
      if (a.ctx.ran (acceptCall a.ctx self (sysAddr a.ctx addr addrlen) addrlen)).result < 0
      then w.state.socketAt
      else Function.update w.state.socketAt w.state.table.objects.length (some { a.ctx.junk with
        d := (a.ctx.ran (acceptCall a.ctx self (sysAddr a.ctx addr addrlen) addrlen)).result }))
    (served : a.serve w.kernel (acceptCall a.ctx self (sysAddr a.ctx addr addrlen) addrlen) =
      some w'.kernel) (fresh : ∀ fd ∈ a.answers.socket, w.kernel.Fresh fd) :
    Inv w' ∧ Proper w a w' := by
  have named : a.op.named = some d := by rw [op]; rfl
  have order := order d ndp self named found
  rw [InOrderFor, op] at order
  obtain ⟨nonzero, answered⟩ := order
  have uses := uses_of_found inv events rfl named found nonzero
  have listens := listens_of_none events rfl
  obtain ⟨ret, kernel⟩ := (Option.ite_none_right_eq_some ..).mp served
  have ret : a.ctx.peer.ret = _ := ret
  have kernel := (Option.some.inj kernel).symm
  cases sgxOcallSockAccept_cases a.answers w.kernel with
  | inl failed =>
    rw [failed] at ret kernel
    dsimp only at ret
    have result : (a.ctx.ran (acceptCall a.ctx self (sysAddr a.ctx addr addrlen) addrlen)).result =
        -1 := by
      rw [result_accept, ret]
      exact if_neg fun rejected => absurd rejected.1 (by decide)
    rw [sockets_eq, result, if_pos (by decide)] at after
    refine ⟨inv.same after rfl kernel, uses, ?_, listens⟩
    exact closes_of_kept inv after (kept_self w.state) (by rw [kernel]) (noClose_of_one events rfl)
  | inr opened =>
    obtain ⟨fd, mem, opened⟩ := opened
    obtain ⟨some, accepted⟩ := answered fd mem
    rw [opened] at ret kernel
    have result : (a.ctx.ran (acceptCall a.ctx self (sysAddr a.ctx addr addrlen) addrlen)).result =
        fd := by
      rw [result_accept, ret]
      exact if_neg fun rejected => accepted rejected.2
    rw [sockets_eq, result, if_neg (Int.not_lt.mpr (fresh fd mem).1)] at after
    have idle : holds w.state.socketAt w.state.table.objects.length = none := by
      rw [holds, socketAt_length]
      rfl
    refine ⟨inv.acquire (fresh fd mem) after idle some kernel, uses, ?_, listens⟩
    refine closes_of_kept inv after (kept_new w.state _) ?_ (noClose_of_one events rfl)
    rw [kernel]
    exact subset_opened w.kernel fd

theorem connect_step (inv : Inv w) {servaddr : BitVec 32}
    (op : a.op = .call (.socketConnect d servaddr addrlen)) (order : InOrder w a)
    (found : Found w.state d ndp self)
    (events : (a.outcome w.state).events =
      [connectCall a.ctx (sysAddr a.ctx servaddr addrlen) addrlen]) (after : After w'.state sockets)
    (sockets_eq : sockets =
      if (a.ctx.ran (connectCall a.ctx (sysAddr a.ctx servaddr addrlen) addrlen)).result < 0
      then w.state.socketAt
      else Function.update w.state.socketAt ndp (some { self with
        d := (a.ctx.ran (connectCall a.ctx (sysAddr a.ctx servaddr addrlen) addrlen)).result }))
    (served : a.serve w.kernel (connectCall a.ctx (sysAddr a.ctx servaddr addrlen) addrlen) =
      some w'.kernel) (fresh : ∀ fd ∈ a.answers.socket, w.kernel.Fresh fd) :
    Inv w' ∧ Proper w a w' := by
  have named : a.op.named = some d := by rw [op]; rfl
  have order := order d ndp self named found
  rw [InOrderFor, op] at order
  have uses := uses_of_none events rfl
  have listens := listens_of_none events rfl
  obtain ⟨addr, copied, served⟩ := Option.bind_eq_some_iff.mp served
  obtain ⟨ret, kernel⟩ := (Option.ite_none_right_eq_some ..).mp served
  have ret : a.ctx.peer.ret = _ := ret
  have kernel := (Option.some.inj kernel).symm
  rw [result_connect, ret] at sockets_eq
  cases sgxOcallSockConnect_cases fresh with
  | inl failed =>
    rw [failed] at kernel sockets_eq
    rw [sockets_eq, if_pos (show (-1 : Int) < 0 by decide)] at after
    refine ⟨inv.same after rfl kernel, uses, ?_, listens⟩
    exact closes_of_kept inv after (kept_self w.state) (by rw [kernel]) (noClose_of_one events rfl)
  | inr opened =>
    obtain ⟨fd, mem, connects, opened⟩ := opened
    obtain ⟨nonzero, idle⟩ := order fd mem connects
    rw [opened] at kernel sockets_eq
    rw [sockets_eq, if_neg (Int.not_lt.mpr (fresh fd mem).1)] at after
    refine ⟨inv.acquire (fresh fd mem) after (holds_idle found idle) nonzero kernel, uses, ?_,
      listens⟩
    refine closes_of_kept inv after (kept_update found.socket fun some => absurd idle some) ?_
      (noClose_of_one events rfl)
    rw [kernel]
    exact subset_opened w.kernel fd

theorem transfer_step (inv : Inv w) (named : a.op.named = some d)
    (found : Found w.state d ndp self) (nonzero : self.d ≠ 0) {c : Call}
    (events : (a.outcome w.state).events = [c]) (used : usedBy c = some self.d)
    (quiet : isClose c = false ∧ isListen c = false) (kernel : w'.kernel = w.kernel)
    (after : After w'.state w.state.socketAt) : Inv w' ∧ Proper w a w' := by
  refine ⟨inv.same after rfl kernel, uses_of_found inv events used named found nonzero, ?_,
    listens_of_none events quiet.2⟩
  exact closes_of_kept inv after (kept_self w.state) (by rw [kernel])
    (noClose_of_one events quiet.1)

theorem close_step (inv : Inv w) (op : a.op = .close d) (found : Found w.state d ndp self)
    (nonzero : self.d ≠ 0) (events : (a.outcome w.state).events = [.close self.d 0])
    (served : a.serve w.kernel (.close self.d 0) = some w'.kernel)
    (after : After w'.state (Function.update w.state.socketAt ndp none)) :
    Inv w' ∧ Proper w a w' := by
  have named : a.op.named = some d := by rw [op]; rfl
  have held := holds_of_socket found.socket nonzero
  have kernel : w'.kernel = w.kernel.close self.d := by
    obtain ⟨-, kernel⟩ := (Option.ite_none_left_eq_some ..).mp served
    exact (Option.some.inj kernel).symm
  have gone : self.d ∉ w'.kernel.sockets := by
    rw [kernel]
    exact Finset.notMem_erase self.d w.kernel.sockets
  refine ⟨⟨after.sound, ?_, ?_⟩, uses_of_found inv events rfl named found nonzero, ?_,
    listens_of_none events rfl⟩
  · rw [after.eq, holds_update, kernel]
    exact inv.exclusive.release held
  · rw [kernel]
    exact fun mem => inv.zero (Finset.mem_of_mem_erase mem)
  · intro other self' here mem
    by_cases same : other = ndp
    · subst same
      cases found.socket.symm.trans here
      exact Or.inl ⟨by rw [after.eq, Function.update_self], events, gone⟩
    · -- the other descriptors keep theirs
      have nonzero' : self'.d ≠ 0 := fun zero => inv.zero (zero ▸ mem)
      have apart : self'.d ≠ self.d := fun eq => same <| inv.exclusive.unique _ _ self.d
        (eq ▸ holds_of_socket here nonzero') held
      refine Or.inr ⟨⟨self', by rw [after.eq, Function.update_of_ne same, here], rfl⟩, ?_, ?_⟩
      · rw [kernel]
        exact Finset.mem_erase.mpr ⟨apart, mem⟩
      · intro ret closes
        rw [events, List.mem_singleton] at closes
        injection closes with eq
        exact apart eq

end Calls

/-- One call in order keeps the invariant, and is proper. -/
theorem step_spec {w' : World} {a : Action} (inv : Inv w) (order : InOrder w a)
    (stepped : step w a = some w') : Inv w' ∧ Proper w a w' := by
  obtain ⟨sockets, effect, after, served, fresh⟩ := step_inv inv.sound stepped
  have opEq : ∃ op, op = a.op := ⟨_, rfl⟩
  have eventsEq : ∃ events, events = (a.outcome w.state).events := ⟨_, rfl⟩
  obtain ⟨op, opEq⟩ := opEq
  obtain ⟨events, eventsEq⟩ := eventsEq
  rw [← opEq, ← eventsEq] at effect
  rw [← eventsEq] at served
  cases effect with
  | none =>
    exact quiet inv after rfl (Option.some.inj served).symm (kept_self w.state) eventsEq.symm
  | opened =>
    refine quiet inv after ?_ (Option.some.inj served).symm (kept_new w.state _) eventsEq.symm
    rw [holds_update, Option.bind_some, if_pos rfl, Function.update_eq_self_iff, holds,
      socketAt_length]
    rfl
  | bound found myaddr addrlen =>
    refine quiet inv after (holds_update_same found.socket rfl) (Option.some.inj served).symm ?_
      eventsEq.symm
    exact kept_update found.socket fun _ => rfl
  | listened found addrlen =>
    exact listen_step inv opEq.symm order found eventsEq.symm after (served_one served) fresh
  | acceptFailed found addr addrlen failed =>
    exact accept_step inv opEq.symm order found eventsEq.symm after (if_pos failed).symm
      (served_one served) fresh
  | accepted found addr addrlen ok =>
    exact accept_step inv opEq.symm order found eventsEq.symm after (if_neg ok).symm
      (served_one served) fresh
  | connectFailed found servaddr addrlen failed =>
    exact connect_step inv opEq.symm order found eventsEq.symm after (if_pos failed).symm
      (served_one served) fresh
  | connected found servaddr addrlen ok =>
    exact connect_step inv opEq.symm order found eventsEq.symm after (if_neg ok).symm
      (served_one served) fresh
  | hasRead found buf count sysaddr n range =>
    have nonzero := order _ _ _ (by rw [← opEq]; rfl) found
    rw [InOrderFor, ← opEq] at nonzero
    exact transfer_step inv (by rw [← opEq]; rfl) found (nonzero (by rw [range]; exact nofun))
      eventsEq.symm rfl ⟨rfl, rfl⟩ (Option.some.inj (served_one served)).symm after
  | hasWritten found buf count sysaddr n range =>
    have nonzero := order _ _ _ (by rw [← opEq]; rfl) found
    rw [InOrderFor, ← opEq] at nonzero
    exact transfer_step inv (by rw [← opEq]; rfl) found (nonzero (by rw [range]; exact nofun))
      eventsEq.symm rfl ⟨rfl, rfl⟩ (Option.some.inj (served_one served)).symm after
  | destroyed found last closed =>
    have nonzero := order _ _ _ (by rw [← opEq]; rfl) found
    rw [InOrderFor, ← opEq] at nonzero
    rw [closed] at eventsEq served
    exact close_step inv opEq.symm found (nonzero last) eventsEq.symm (served_one served) after

/-! ## Runs -/

/-- No socket has been made. -/
structure Start (w : World) : Prop where
  sound : Sound w.state
  others : ∀ ndp, w.state.descs ndp = .other
  host : w.kernel.sockets = ∅

theorem Start.inv (start : Start w) : Inv w := by
  have nothing : holds w.state.socketAt = fun _ => none := by
    funext ndp
    rw [holds, State.socketAt, start.others]
    simp [Desc.asSocket]
  refine ⟨start.sound, ⟨?_, ?_, ?_⟩, ?_⟩
  · rw [nothing]
    intro ndp r same
    cases same
  · rw [nothing]
    intro ndp ndp' r same
    cases same
  · rw [start.host]
    exact fun r mem => absurd mem (Finset.notMem_empty r)
  · rw [start.host]
    exact Finset.notMem_empty 0

/-- The host process has its standard input open. -/
def World.fresh : World := ⟨.empty, ⟨{0}, ∅⟩, fun _ => none⟩

theorem start_fresh : Start World.fresh where
  sound := ⟨(wellFormed_of_balanced (DescTable.start_balanced 0) : WellFormed State.empty).ok, nofun⟩
  others := fun _ => rfl
  host := rfl

/-- A host that answers with `ret` where it is asked for a socket, and closes what it is told to. -/
def action (op : SocketOp) (ret : Int) (socket : Option Int) : Action where
  ctx := { refusingHost with peer := ⟨⟨ret, 0, 0, 0, 0, 0⟩, 0⟩, closed := 0 }
  answers := ⟨socket, true, true, true, true, true, []⟩
  mem := fun _ => 0
  op := op

def openAction : Action := action (.call (.socketOpen afInet sockStream ipprotoTcp)) (-1) none

def connectAction : Action := action (.call (.socketConnect 0 0x10000 16)) 7 (some 7)

example : ([openAction, connectAction, action (.close 0) 0 none].foldlM step .fresh).map
    (fun w => (w.kernel.files, w.kernel.sockets)) = some ({0}, ∅) := by
  decide +kernel

theorem inOrder_connect : ∀ pre a, pre ++ [a] <+: [openAction, connectAction] →
    ∀ t, pre.foldlM step .fresh = some t → InOrder t a := by
  intro pre a within t ran
  match pre with
  | [] =>
    obtain ⟨rfl, -⟩ := List.cons_prefix_cons.mp within
    exact fun d ndp self named => nomatch named
  | [b] =>
    obtain ⟨first, rest⟩ := List.cons_prefix_cons.mp within
    obtain ⟨second, -⟩ := List.cons_prefix_cons.mp rest
    subst first second
    cases ran
    intro d ndp self named found
    cases named
    cases found.lookup
    cases found.socket
    intro fd mem _
    cases mem
    exact ⟨by decide, rfl⟩
  | b :: c :: pre =>
    have := within.length_le
    simp at this

end SandboxTEE.Socket
