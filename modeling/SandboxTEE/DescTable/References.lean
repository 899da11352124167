import SandboxTEE.DescTable.DynArray
import SandboxTEE.Lib.Run
import SandboxTEE.Runtime.App

/-! # References to descriptors (`sel_ldr_sgx.c`, `sys_fdio.c`)

`NaClAppGetDesc` takes a reference for its caller; `NaClAppSetDesc` takes over the caller's and
drops that of the slot.  Threads run `NaClSysOpen`, `NaClSysDup`, `NaClSysDup2`, `NaClSysClose`
and system calls that look up a descriptor; an action is what a thread does with `desc_mu`, or
with the lock of one reference count.

An object is the number of its `NaClDesc`, in the order in which they are made.
-/

namespace SandboxTEE.DescTable

open Lib
open SandboxTEE.Runtime

def naclMaxFd : Int := 4096
def int32Max : Nat := 2 ^ 31 - 1

/-! ## Reference counts -/

/-- The `ref_count` of each object; `none` has been destroyed. -/
abbrev Objects := List (Option Nat)

inductive Stop where
  /-- `LOG_FATAL`. -/
  | fatal
  /-- Use of an object that has been destroyed. -/
  | freed
  /-- The thread is in a call, or in none. -/
  | busy

def naClRefCountRef (objects : Objects) (nrcp : Nat) : Except Stop Objects :=
  match objects[nrcp]? with
  | some (some refCount) =>
    if (refCount + 1) % 2 ^ 64 = 0 then .error .fatal
    else .ok (objects.set nrcp (some (refCount + 1)))
  | _ => .error .freed

def naClRefCountUnref (objects : Objects) (nrcp : Nat) : Except Stop Objects :=
  match objects[nrcp]? with
  | some (some refCount) =>
    if refCount = 0 then .error .fatal
    else
      -- at 0 the destructor runs, and the object is freed
      .ok (objects.set nrcp (if refCount - 1 = 0 then none else some (refCount - 1)))
  | _ => .error .freed

def naClDescSafeUnref (objects : Objects) : Option Nat → Except Stop Objects
  | none => .ok objects
  | some ndp => naClRefCountUnref objects ndp

/-! ## Calls -/

/-- What a thread does next. -/
inductive Op where
  /-- It is in no call, and the last one returned this. -/
  | done (retval : Int)
  /-- `NaClAppSetDescAvail`, in `NaClSysOpen` and `NaClSysDup`. -/
  | setAvail (ndp : Nat)
  /-- `NaClAppSetDesc`, in `NaClSysDup2`. -/
  | set (newfd ndp : Nat)
  /-- `NaClDescUnref`, in `NaClSysClose` and after a lookup. -/
  | unref (ndp : Nat) (retval : Int)

structure State where
  descTbl : DynArray Nat
  objects : Objects
  /-- Of each thread. -/
  ops : List Op

inductive Action where
  /-- `NaClSysOpen`, which fails or makes a descriptor. -/
  | opens (thread : Nat) (failure : Option Int)
  | dup (thread : Nat) (oldfd : Int)
  | dup2 (thread : Nat) (oldfd newfd : Int)
  | close (thread : Nat) (d : Int)
  /-- A call that uses a descriptor, and what it will return. -/
  | lookup (thread : Nat) (d retval : Int)
  /-- The next step of a call; `allocated` tells whether `realloc` succeeds. -/
  | next (thread : Nat) (allocated : Bool)

/-- An `int` as a `size_t`. -/
def index (d : Int) : Nat := (d % 2 ^ 64).toNat

/-- `NaClAppGetDescMu`. -/
def naClAppGetDescMu (s : State) (d : Int) : Except Stop (Option Nat × Objects) :=
  match dynArrayGet s.descTbl (index d) with
  | none => .ok (none, s.objects)
  | some result => (naClRefCountRef s.objects result).map fun objects => (some result, objects)

/-- `NaClAppSetDescMu`. -/
def naClAppSetDescMu (allocated : Bool) (s : State) (d : Nat) (ndp : Option Nat) :
    Except Stop State :=
  match naClDescSafeUnref s.objects (dynArrayGet s.descTbl d) with
  | .error stop => .error stop
  | .ok objects =>
    match dynArraySet allocated s.descTbl d ndp with
    | none => .error .fatal
    | some descTbl => .ok { s with descTbl := descTbl, objects := objects }

/-- `NaClAppSetDescAvailMu`. -/
def naClAppSetDescAvailMu (allocated : Bool) (s : State) (ndp : Nat) : Except Stop (Nat × State) :=
  let (pos, descTbl) := dynArrayFirstAvail s.descTbl
  if pos > int32Max then .error .fatal
  else
    (naClAppSetDescMu allocated { s with descTbl := descTbl } pos (some ndp)).map fun s => (pos, s)

def State.start (threads : Nat) : State := ⟨dynArrayCtor 15, [], .replicate threads (.done 0)⟩

def State.then (s : State) (t : Nat) (op : Op) : State := { s with ops := s.ops.set t op }

/-- The lookup at the start of a call, and what the call does with the descriptor. -/
def withDesc (s : State) (t : Nat) (d : Int) (op : Nat → Op) : Except Stop State :=
  match naClAppGetDescMu s d with
  | .error stop => .error stop
  | .ok (none, objects) => .ok ({ s with objects := objects }.then t (.done (-naClAbiEBADF)))
  | .ok (some ndp, objects) => .ok ({ s with objects := objects }.then t (op ndp))

/-- `NaClSysClose`, while `desc_mu` is held. -/
def closeDesc (s : State) (t : Nat) (d : Int) : Except Stop State :=
  match naClAppGetDescMu s d with
  | .error stop => .error stop
  | .ok (none, objects) => .ok ({ s with objects := objects }.then t (.done (-naClAbiEBADF)))
  | .ok (some ndp, objects) =>
    -- the slot exists, so that nothing is allocated
    (naClAppSetDescMu false { s with objects := objects } (index d) none).map
      (·.then t (.unref ndp 0))

def enter (s : State) (t : Nat) : Action → Except Stop State
  | .opens _ (some failure) => .ok (s.then t (.done failure))
  | .opens _ none =>
    .ok ({ s with objects := s.objects ++ [some 1] }.then t (.setAvail s.objects.length))
  | .dup _ oldfd => withDesc s t oldfd .setAvail
  | .dup2 _ oldfd newfd =>
    if newfd < 0 then .ok (s.then t (.done (-naClAbiEINVAL)))
    else if newfd ≥ naclMaxFd then .ok (s.then t (.done (-naClAbiEINVAL)))
    else withDesc s t oldfd (.set newfd.toNat)
  | .close _ d => closeDesc s t d
  | .lookup _ d retval => withDesc s t d (.unref · retval)
  | .next _ _ => .error .busy

def next (allocated : Bool) (s : State) (t : Nat) : Op → Except Stop State
  | .done _ => .error .busy
  | .setAvail ndp =>
    (naClAppSetDescAvailMu allocated s ndp).map fun (pos, s) => s.then t (.done pos)
  | .set newfd ndp =>
    (naClAppSetDescMu allocated s newfd (some ndp)).map (·.then t (.done newfd))
  | .unref ndp retval =>
    (naClRefCountUnref s.objects ndp).map fun objects =>
      { s with objects := objects }.then t (.done retval)

def Action.thread : Action → Nat
  | .opens t _ | .dup t _ | .dup2 t _ _ | .close t _ | .lookup t _ _ | .next t _ => t

def step (s : State) (a : Action) : Except Stop State :=
  match s.ops[a.thread]?, a with
  | some op, .next t allocated => next allocated s t op
  | some (.done _), a => enter s a.thread a
  | _, _ => .error .busy

/-! ## What the counts count -/

def Op.holds (d : Nat) : Op → Bool
  | .done _ => false
  | .setAvail ndp | .set _ ndp | .unref ndp _ => ndp = d

def one (p : Bool) : Nat := if p then 1 else 0

/-- The slots that hold an object. -/
def tableRefs (dap : DynArray Nat) (d : Nat) : Nat := dap.ptrArray.countP fun ptr => ptr = some d

/-- The calls that hold a reference to it. -/
def opRefs (ops : List Op) (d : Nat) : Nat := ops.countP (Op.holds d)

/-- The reference count, which is 0 for an object that has been destroyed. -/
def refCount (objects : Objects) (d : Nat) : Nat := objects[d]?.join.getD 0

/-- The reference counts are `refs`, and an object with none has been destroyed. -/
structure Counts (objects : Objects) (refs : Nat → Nat) : Prop where
  counted : ∀ d, refCount objects d = refs d
  positive : ∀ d : Nat, objects[d]? ≠ some (some 0)

section Counts

variable {objects : Objects} {refs : Nat → Nat} (counts : Counts objects refs)

include counts

variable {d : Nat}

theorem Counts.alive (held : 0 < refs d) :
    ∃ n, objects[d]? = some (some n) ∧ n = refs d ∧ n ≠ 0 := by
  have counted := counts.counted d
  unfold refCount at counted
  cases here : objects[d]? with
  | none =>
    rw [here] at counted
    exact absurd counted (Nat.ne_of_lt held)
  | some object =>
    rw [here] at counted
    cases object with
    | none => exact absurd counted (Nat.ne_of_lt held)
    | some n => exact ⟨n, rfl, counted, fun zero => counts.positive d (by rw [here, zero])⟩

variable {refs' : Nat → Nat}

theorem Counts.set (inside : d < objects.length) {object : Option Nat} (nonzero : object ≠ some 0)
    (here : object.getD 0 = refs' d) (others : ∀ e, e ≠ d → refs' e = refs e) :
    Counts (objects.set d object) refs' where
  counted := fun e => by
    by_cases same : e = d
    · subst same
      rw [refCount, List.getElem?_set_self inside, Option.join_some, here]
    · rw [refCount, List.getElem?_set_ne (Ne.symm same), others e same]
      exact counts.counted e
  positive := fun e => by
    by_cases same : e = d
    · subst same
      rw [List.getElem?_set_self inside]
      simpa using nonzero
    · rw [List.getElem?_set_ne (Ne.symm same)]
      exact counts.positive e

theorem Counts.ref (held : 0 < refs d) :
    naClRefCountRef objects d = .error .fatal ∨ ∃ objects', naClRefCountRef objects d = .ok objects' ∧
      Counts objects' fun e => refs e + one (e = d) := by
  obtain ⟨n, here, counted, _⟩ := counts.alive held
  rw [naClRefCountRef, here]
  dsimp only
  split
  · exact Or.inl rfl
  · refine Or.inr ⟨_, rfl, counts.set (List.getElem?_eq_some_iff.mp here).1 (by simp) ?_ ?_⟩
    · simp [one, counted]
    · intro e ne
      simp [one, ne]

theorem Counts.unref {d : Nat} (held : 0 < refs d) :
    ∃ objects', naClRefCountUnref objects d = .ok objects' ∧
      Counts objects' fun e => refs e - one (e = d) := by
  obtain ⟨n, here, counted, nonzero⟩ := counts.alive held
  rw [naClRefCountUnref, here]
  dsimp only
  rw [if_neg nonzero]
  refine ⟨_, rfl, counts.set (List.getElem?_eq_some_iff.mp here).1 ?_ ?_ ?_⟩
  · split
    · simp
    · next more => simpa using more
  · split
    · next last => simp [one, ← counted, last]
    · simp [one, counted]
  · intro e ne
    simp [one, ne]

theorem Counts.make : Counts (objects ++ [some 1]) fun e => refs e + one (e = objects.length) where
  counted := fun e => by
    have counted := counts.counted e
    rcases Nat.lt_trichotomy e objects.length with less | rfl | more
    · rw [refCount, List.getElem?_append_left less]
      simpa [one, Nat.ne_of_lt less, refCount] using counted
    · rw [refCount, List.getElem?_concat_length]
      rw [refCount, List.getElem?_eq_none (Nat.le_refl _)] at counted
      simp [one, ← counted]
    · rw [refCount, List.getElem?_eq_none (by simp; omega)]
      rw [refCount, List.getElem?_eq_none (by omega)] at counted
      simp [one, Nat.ne_of_gt more, ← counted]
  positive := fun e => by
    rcases Nat.lt_trichotomy e objects.length with less | rfl | more
    · rw [List.getElem?_append_left less]
      exact counts.positive e
    · rw [List.getElem?_concat_length]
      simp
    · rw [List.getElem?_eq_none (by simp; omega)]
      simp

theorem Counts.congr (same : ∀ e, refs' e = refs e) : Counts objects refs' :=
  ⟨fun d => (counts.counted d).trans (same d).symm, counts.positive⟩

end Counts

section Table

variable {s : State} {held : Nat → Nat}

variable {i d : Nat} {dap : DynArray Nat}

theorem slot_mem (here : dap.slot i = some d) : some d ∈ dap.ptrArray :=
  List.mem_of_getElem? (Option.join_eq_some_iff.mp here)

theorem tableRefs_pos (here : dap.slot i = some d) : 0 < tableRefs dap d :=
  List.countP_pos_iff.mpr ⟨some d, slot_mem here, by simp⟩

theorem naClAppGetDescMu_counts (ok : s.descTbl.Ok)
    (counts : Counts s.objects fun e => tableRefs s.descTbl e + held e) (d : Int) :
    naClAppGetDescMu s d = .error .fatal ∨
      (s.descTbl.slot (index d) = none ∧ naClAppGetDescMu s d = .ok (none, s.objects)) ∨
      ∃ ndp objects, s.descTbl.slot (index d) = some ndp ∧
        naClAppGetDescMu s d = .ok (some ndp, objects) ∧
        Counts objects fun e => tableRefs s.descTbl e + (held e + one (e = ndp)) := by
  rw [naClAppGetDescMu, ok.get]
  cases here : s.descTbl.slot (index d) with
  | none => exact Or.inr (Or.inl ⟨rfl, rfl⟩)
  | some ndp =>
    dsimp only
    rcases counts.ref (Nat.lt_of_lt_of_le (tableRefs_pos here) (Nat.le_add_right _ _)) with
      fatal | ⟨objects, ref, counts'⟩
    · rw [fatal]
      exact Or.inl rfl
    · rw [ref]
      exact Or.inr (Or.inr ⟨ndp, objects, rfl, rfl, counts'.congr fun e => by omega⟩)

/-- An assignment takes over a reference of the caller, and drops that of the slot. -/
theorem naClAppSetDescMu_counts (ok : s.descTbl.Ok)
    (counts : Counts s.objects fun e => tableRefs s.descTbl e + held e) (allocated : Bool)
    (d : Nat) {new : Option Nat} (held_new : ∀ ndp, new = some ndp → 0 < held ndp) :
    naClAppSetDescMu allocated s d new = .error .fatal ∨
      ∃ descTbl objects, naClAppSetDescMu allocated s d new =
          .ok { s with descTbl := descTbl, objects := objects } ∧ descTbl.Ok ∧
        descTbl.slot = Function.update s.descTbl.slot d new ∧
        Counts objects fun e => tableRefs descTbl e + (held e - one (new = some e)) := by
  rw [naClAppSetDescMu, ok.get]
  -- the reference of the slot
  obtain ⟨objects, dropped, counts'⟩ : ∃ objects, naClDescSafeUnref s.objects (s.descTbl.slot d) =
      .ok objects ∧ Counts objects fun e =>
        tableRefs s.descTbl e + held e - one (s.descTbl.slot d = some e) := by
    cases here : s.descTbl.slot d with
    | none => exact ⟨s.objects, rfl, counts.congr fun e => by simp [one]⟩
    | some old =>
      obtain ⟨objects, unref, counts'⟩ :=
        counts.unref (Nat.lt_of_lt_of_le (tableRefs_pos here) (Nat.le_add_right _ _))
      exact ⟨objects, unref, counts'.congr fun e => by simp [one, eq_comm]⟩
  rw [dropped]
  dsimp only
  cases assigned : dynArraySet allocated s.descTbl d new with
  | none => exact Or.inl rfl
  | some descTbl =>
    obtain ⟨ok', spec⟩ := dynArraySet_spec ok assigned
    refine Or.inr ⟨descTbl, objects, rfl, ok', ?_, counts'.congr fun e => ?_⟩
    · funext i
      rw [spec.slot i, Function.update_apply]
    · have count := spec.count (fun ptr => ptr = some e) (by simp)
      have enough : one (new = some e) ≤ held e := by
        unfold one
        split
        · next here => exact held_new e (by simpa using here)
        · exact Nat.zero_le _
      simp only [tableRefs, one, decide_eq_true_eq] at *
      omega

end Table

/-! ## Steps -/

structure Balanced (s : State) : Prop where
  ok : s.descTbl.Ok
  counts : Counts s.objects fun d => tableRefs s.descTbl d + opRefs s.ops d

/-- What a step does to the slots: those it does not name keep their descriptor. -/
def SlotChange (s s' : State) : Action → Prop
  | .close _ d => s'.descTbl.slot = Function.update s.descTbl.slot (index d) none
  | .next t _ =>
    match s.ops[t]? with
    | some (.setAvail ndp) => ∃ pos : Nat, s.descTbl.slot pos = none ∧
        s'.descTbl.slot = Function.update s.descTbl.slot pos (some ndp) ∧
        s'.ops[t]? = some (.done pos)
    | some (.set newfd ndp) =>
      s'.descTbl.slot = Function.update s.descTbl.slot newfd (some ndp) ∧
        s'.ops[t]? = some (.done newfd)
    | _ => s'.descTbl.slot = s.descTbl.slot
  | _ => s'.descTbl.slot = s.descTbl.slot

section Steps

variable {s : State} {t : Nat} {op : Op}

variable {ops : List Op}

theorem opRefs_set (here : ops[t]? = some op) (op' : Op) (d : Nat) :
    opRefs (ops.set t op') d + one (op.holds d) = opRefs ops d + one (op'.holds d) ∧
      one (op.holds d) ≤ opRefs ops d := by
  obtain ⟨inside, rfl⟩ := List.getElem?_eq_some_iff.mp here
  have le : one ((ops[t]).holds d) ≤ opRefs ops d := by
    unfold one
    split
    · next holds => exact List.countP_pos_iff.mpr ⟨_, List.getElem_mem inside, holds⟩
    · exact Nat.zero_le _
  refine ⟨?_, le⟩
  simp only [opRefs, one] at *
  rw [List.countP_set inside]
  omega

theorem ops_then (here : s.ops[t]? = some op) (op' : Op) : (s.then t op').ops[t]? = some op' :=
  List.getElem?_set_self (List.getElem?_eq_some_iff.mp here).1

theorem balanced_then {retval : Int} (idle : s.ops[t]? = some (.done retval)) {objects : Objects}
    (ok : s.descTbl.Ok) (op : Op) (counts : Counts objects fun d =>
      tableRefs s.descTbl d + (opRefs s.ops d + one (op.holds d))) :
    Balanced ({ s with objects := objects }.then t op) where
  ok := ok
  counts := counts.congr fun d => by
    have set := (opRefs_set idle op d).1
    have none : one ((Op.done retval).holds d) = 0 := rfl
    change tableRefs s.descTbl d + opRefs (s.ops.set t op) d = _
    omega

theorem one_holds_eq (d ndp : Nat) : one (decide (ndp = d)) = one (decide (d = ndp)) := by
  simp [one, eq_comm]

variable {retval : Int}

theorem withDesc_spec (balanced : Balanced s) (idle : s.ops[t]? = some (.done retval)) (d : Int)
    {op : Nat → Op} (holds : ∀ ndp d, (op ndp).holds d = decide (ndp = d)) :
    withDesc s t d op = .error .fatal ∨ ∃ s', withDesc s t d op = .ok s' ∧ Balanced s' ∧
      s'.descTbl.slot = s.descTbl.slot := by
  rw [withDesc]
  rcases naClAppGetDescMu_counts balanced.ok balanced.counts d with
    fatal | ⟨_, missing⟩ | ⟨ndp, objects, _, found, counts⟩
  · rw [fatal]
    exact Or.inl rfl
  · rw [missing]
    refine Or.inr ⟨_, rfl, balanced_then idle balanced.ok _ (balanced.counts.congr fun e => ?_), rfl⟩
    rfl
  · rw [found]
    refine Or.inr ⟨_, rfl, balanced_then idle balanced.ok _ (counts.congr fun e => ?_), rfl⟩
    rw [holds, one_holds_eq]

theorem closeDesc_spec (balanced : Balanced s) (idle : s.ops[t]? = some (.done retval)) (d : Int) :
    closeDesc s t d = .error .fatal ∨ ∃ s', closeDesc s t d = .ok s' ∧ Balanced s' ∧
      s'.descTbl.slot = Function.update s.descTbl.slot (index d) none := by
  rw [closeDesc]
  rcases naClAppGetDescMu_counts balanced.ok balanced.counts d with
    fatal | ⟨empty, missing⟩ | ⟨ndp, objects, _, found, counts⟩
  · rw [fatal]
    exact Or.inl rfl
  · rw [missing]
    refine Or.inr ⟨_, rfl, balanced_then idle balanced.ok _ (balanced.counts.congr fun e => ?_), ?_⟩
    · rfl
    · rw [← empty, Function.update_eq_self]
      rfl
  · rw [found]
    dsimp only
    -- the slot's reference is dropped, the one that was taken is left
    rcases @naClAppSetDescMu_counts { s with objects := objects }
        (fun e => opRefs s.ops e + one (e = ndp)) balanced.ok counts false (index d) none nofun with
      fatal | ⟨descTbl, objects', closed, ok, slot, counts'⟩
    · rw [fatal]
      exact Or.inl rfl
    · rw [closed]
      refine Or.inr ⟨_, rfl, ?_, slot⟩
      refine @balanced_then { s with descTbl := descTbl } t _ idle objects' ok _
        (counts'.congr fun e => ?_)
      have none : one (decide ((none : Option Nat) = some e)) = 0 := by simp [one]
      rw [Op.holds, one_holds_eq]
      dsimp only
      omega

theorem enter_spec (balanced : Balanced s) (idle : s.ops[t]? = some (.done retval)) {a : Action}
    (same : a.thread = t) (starts : ∀ t allocated, a ≠ .next t allocated) :
    enter s t a = .error .fatal ∨ ∃ s', enter s t a = .ok s' ∧ Balanced s' ∧ SlotChange s s' a := by
  cases a with
  | opens t' failure =>
    cases failure with
    | some failure =>
      refine Or.inr ⟨_, rfl, ?_, rfl⟩
      exact balanced_then idle balanced.ok _ (balanced.counts.congr fun e => rfl)
    | none =>
      refine Or.inr ⟨_, rfl, ?_, rfl⟩
      refine balanced_then idle balanced.ok _ (balanced.counts.make.congr fun e => ?_)
      rw [Op.holds, one_holds_eq]
      omega
  | dup t' oldfd => exact withDesc_spec balanced idle oldfd fun _ _ => rfl
  | dup2 t' oldfd newfd =>
    have refused : Balanced (s.then t (.done (-naClAbiEINVAL))) :=
      balanced_then idle balanced.ok _ (balanced.counts.congr fun e => rfl)
    rw [enter]
    split
    · exact Or.inr ⟨_, rfl, refused, rfl⟩
    split
    · exact Or.inr ⟨_, rfl, refused, rfl⟩
    · exact withDesc_spec balanced idle oldfd fun _ _ => rfl
  | close t' d => exact closeDesc_spec balanced idle d
  | lookup t' d retval' => exact withDesc_spec balanced idle d fun _ _ => rfl
  | next t' allocated => exact absurd rfl (starts t' allocated)

/-- A call passes its reference on, and is done. -/
theorem opRefs_done (here : ops[t]? = some op) {ndp : Nat}
    (holds : ∀ d, op.holds d = decide (ndp = d)) (retval : Int) (d : Nat) :
    opRefs (ops.set t (.done retval)) d = opRefs ops d - one (ndp = d) ∧ 0 < opRefs ops ndp := by
  obtain ⟨set, le⟩ := opRefs_set here (.done retval) d
  have held := (opRefs_set here (.done retval) ndp).2
  have none : one ((Op.done retval).holds d) = 0 := rfl
  rw [holds] at set le held
  have self : one (decide (ndp = ndp)) = 1 := by simp [one]
  omega

theorem store_spec (ok : s.descTbl.Ok)
    (counts : Counts s.objects fun d => tableRefs s.descTbl d + opRefs s.ops d)
    (here : s.ops[t]? = some op) {ndp : Nat} (holds : ∀ d, op.holds d = decide (ndp = d))
    (allocated : Bool) (pos : Nat) : naClAppSetDescMu allocated s pos (some ndp) = .error .fatal ∨
      ∃ s', naClAppSetDescMu allocated s pos (some ndp) = .ok s' ∧
        Balanced (s'.then t (.done pos)) ∧
        s'.descTbl.slot = Function.update s.descTbl.slot pos (some ndp) ∧ s'.ops = s.ops := by
  have done := opRefs_done here holds pos
  rcases @naClAppSetDescMu_counts s _ ok counts allocated pos (some ndp)
      (fun e same => by cases same; exact (done ndp).2) with
    fatal | ⟨descTbl, objects, stored, ok', slot, counts'⟩
  · exact Or.inl fatal
  · refine Or.inr ⟨_, stored, ⟨ok', counts'.congr fun e => ?_⟩, slot, rfl⟩
    change tableRefs descTbl e + opRefs (s.ops.set t (.done pos)) e = _
    rw [(done e).1]
    simp [one]

theorem next_spec (balanced : Balanced s) (here : s.ops[t]? = some op)
    (inCall : ∀ retval, op ≠ .done retval) (allocated : Bool) :
    next allocated s t op = .error .fatal ∨ ∃ s', next allocated s t op = .ok s' ∧ Balanced s' ∧
      SlotChange s s' (.next t allocated) := by
  cases op with
  | done retval => exact absurd rfl (inCall retval)
  | setAvail ndp =>
    rw [next, naClAppSetDescAvailMu]
    cases first : dynArrayFirstAvail s.descTbl with
    | mk pos descTbl =>
      obtain ⟨free, ok, same⟩ := dynArrayFirstAvail_spec balanced.ok first
      have slots : descTbl.slot = s.descTbl.slot := by
        funext i
        rw [DynArray.slot, DynArray.slot, same]
      have refs : tableRefs descTbl = tableRefs s.descTbl := by
        funext d
        rw [tableRefs, tableRefs, same]
      dsimp only
      split
      · exact Or.inl rfl
      · rcases @store_spec { s with descTbl := descTbl } t _ ok
            (balanced.counts.congr fun d => by rw [refs]) here ndp (fun _ => rfl) allocated pos with
          fatal | ⟨s', stored, balanced', slot, ops⟩
        · rw [fatal]
          exact Or.inl rfl
        · rw [stored]
          refine Or.inr ⟨_, rfl, balanced', ?_⟩
          rw [SlotChange, here]
          refine ⟨pos, free, ?_, ops_then (ops.symm ▸ here) _⟩
          rw [← slots]
          exact slot
  | set newfd ndp =>
    rw [next]
    rcases store_spec balanced.ok balanced.counts here (fun _ => rfl) allocated newfd with
      fatal | ⟨s', stored, balanced', slot, ops⟩
    · rw [fatal]
      exact Or.inl rfl
    · rw [stored]
      refine Or.inr ⟨_, rfl, balanced', ?_⟩
      rw [SlotChange, here]
      exact ⟨slot, ops_then (ops.symm ▸ here) _⟩
  | unref ndp retval =>
    rw [next]
    have done := opRefs_done here (fun _ => rfl) retval
    obtain ⟨objects, unref, counts⟩ := @Counts.unref _ _ balanced.counts ndp
      (Nat.lt_of_lt_of_le (done ndp).2 (Nat.le_add_left _ _))
    rw [unref]
    refine Or.inr ⟨_, rfl, ⟨balanced.ok, counts.congr fun e => ?_⟩, ?_⟩
    · change tableRefs s.descTbl e + opRefs (s.ops.set t (.done retval)) e = _
      have held : one (decide (ndp = e)) ≤ opRefs s.ops e := (opRefs_set here (.done retval) e).2
      rw [(done e).1, one_holds_eq] at *
      omega
    · rw [SlotChange, here]
      rfl

/-- A step keeps the counts, and stops only for want of memory or at an overflow. -/
theorem step_spec (balanced : Balanced s) (a : Action) :
    step s a ≠ .error .freed ∧ ∀ s', step s a = .ok s' → Balanced s' ∧ SlotChange s s' a := by
  have fine : ∀ {r : Except Stop State}, (r = .error .fatal ∨ ∃ s', r = .ok s' ∧ Balanced s' ∧
      SlotChange s s' a) → r ≠ .error .freed ∧ ∀ s', r = .ok s' → Balanced s' ∧ SlotChange s s' a := by
    rintro r (rfl | ⟨s', rfl, good⟩)
    · exact ⟨nofun, nofun⟩
    · refine ⟨nofun, fun s'' same => ?_⟩
      cases same
      exact good
  unfold step
  split
  · next op t allocated here =>
    by_cases idle : ∃ retval, op = .done retval
    · obtain ⟨retval, rfl⟩ := idle
      exact ⟨nofun, nofun⟩
    · rw [not_exists] at idle
      exact fine (next_spec balanced here idle _)
  · next a _ retval starts here =>
    exact fine (enter_spec balanced here rfl fun t allocated => starts t allocated)
  · exact ⟨nofun, nofun⟩

end Steps

/-! ## Runs -/

/-- The slots and the calls that hold an object. -/
def State.references (s : State) (d : Nat) : Nat := tableRefs s.descTbl d + opRefs s.ops d

theorem start_balanced (threads : Nat) : Balanced (State.start threads) where
  ok := dynArrayCtor_ok 15
  counts :=
    { counted := fun d => by
        have table : tableRefs (State.start threads).descTbl d = 0 := by
          simp [tableRefs, State.start, dynArrayCtor]
        have ops : opRefs (State.start threads).ops d = 0 := by
          simp [opRefs, State.start, List.countP_replicate, Op.holds]
        rw [table, ops]
        rfl
      positive := fun d => nofun }

end SandboxTEE.DescTable
