import Mathlib.Algebra.Group.Nat.Defs
import Mathlib.Data.Fintype.Basic
import SandboxTEE.Lib.Run

/-! # Thread-specific data (`nc_tsd.c`)

`pthread_key_create`, `pthread_key_delete`, `pthread_setspecific`, `pthread_getspecific` and
`__nc_tsd_exit` by any number of threads, at the granularity of single accesses to `tsd_keys`; the
values of a thread are its own.  A destructor is code of the program: it may make calls.

`generation` is odd while a key is allocated, and only grows, so a value says by its generation
which allocation it was set for (`Inv.values`).  `dtor` is stored after the compare-and-swap that
allocates or frees the key: a store that comes when the key has been allocated again, or a thread
that exits before the store, meets the wrong destructor (`Orderly`).
-/

namespace SandboxTEE.Pthread.Tsd

open SandboxTEE.Lib

def pthreadKeysMax : Nat := 512

def pthreadDestructorIterations : Nat := 4

def uintMax : Nat := 2 ^ 32 - 1

abbrev Key := Fin pthreadKeysMax

def firstKey : Key := ⟨0, by decide⟩

/-- `KEY_ALLOCATED`. -/
def keyAllocated (generation : Nat) : Bool := generation % 2 = 1

/-- `struct tsd_key`. -/
structure TsdKey (δ : Type) where
  dtor : Option δ
  generation : Nat

/-- An entry of `struct tsd`. -/
structure Entry (ν : Type) where
  value : Option ν
  generation : Nat

inductive Result where
  | ok
  | key (key : Key)
  | eagain
  | einval
  | enomem

/-- The next access of `pthread_key_create` and `pthread_key_delete`. -/
inductive Pc (δ : Type) where
  | out (result : Result)
  | createRead (i : Key) (dtor : Option δ)
  | createSwap (i : Key) (generation : Nat) (dtor : Option δ)
  /-- `tsd_keys[i].dtor = dtor`, for the allocation with this generation. -/
  | createStore (i : Key) (generation : Nat) (dtor : Option δ)
  | deleteSwap (key : Key) (generation : Nat)
  /-- `tsd_keys[key].dtor = NULL`, for the free key with this generation. -/
  | deleteStore (key : Key) (generation : Nat)

/-- Where a thread is in `__nc_tsd_exit`. -/
inductive Exit (δ : Type) where
  | not
  /-- `dtor` of `key` is to be read. -/
  | read (repetition : Nat) (key : Key) (didAny : Bool)
  /-- `generation` of `key` is to be read. -/
  | got (repetition : Nat) (key : Key) (didAny : Bool) (dtor : Option δ)
  /-- In the destructor that was called for `key`. -/
  | inside (repetition : Nat) (key : Key)
  | free (repetition : Nat)
  | done

structure Thread (δ ν : Type) where
  pc : Pc δ
  tsd : Option (Key → Entry ν)
  exit : Exit δ
  /-- The keys that the thread has set since the current repetition began. -/
  touched : Key → Bool

/-- A call of `pthread_setspecific` that succeeded, with the generation it has read. -/
structure SetCall (ι ν : Type) where
  thread : ι
  key : Key
  generation : Nat
  value : Option ν

/-- A call of a destructor. -/
structure Passed (ι δ ν : Type) where
  thread : ι
  key : Key
  generation : Nat
  value : ν
  dtor : δ

structure State (ι δ ν : Type) where
  tsdKeys : Key → TsdKey δ
  thread : ι → Thread δ ν
  /-- The destructor that was given for the allocation of a key, by its generation. -/
  given : Key → Nat → Option δ
  sets : List (SetCall ι ν)
  passed : List (Passed ι δ ν)

variable {ι δ ν : Type}

def State.init : State ι δ ν where
  tsdKeys := fun _ => ⟨none, 0⟩
  thread := fun _ => ⟨.out .ok, none, .not, fun _ => false⟩
  given := fun _ _ => none
  sets := []
  passed := []

def State.generation (s : State ι δ ν) (key : Key) : Nat := (s.tsdKeys key).generation

/-- `(size_t) key >= PTHREAD_KEYS_MAX` is refused. -/
def keyOf (key : Int) : Option Key :=
  if h : 0 ≤ key ∧ key < pthreadKeysMax then some ⟨key.toNat, by omega⟩ else none

def pthreadGetspecific [DecidableEq ι] (s : State ι δ ν) (t : ι) (key : Int) : Option ν :=
  (keyOf key).bind fun key => (s.thread t).tsd.bind fun values =>
    if (values key).generation ≠ s.generation key then none else (values key).value

section Steps

variable [DecidableEq ι]

def State.put (s : State ι δ ν) (t : ι) (thread : Thread δ ν) : State ι δ ν :=
  { s with thread := Function.update s.thread t thread }

def State.goTo (s : State ι δ ν) (t : ι) (pc : Pc δ) : State ι δ ν :=
  s.put t { s.thread t with pc := pc }

/-- The compare-and-swap has succeeded: the key has its next generation. -/
def State.swap (s : State ι δ ν) (key : Key) (dtor : Option δ) : State ι δ ν :=
  let generation := (s.generation key + 1) % 2 ^ 32
  { s with
    tsdKeys := Function.update s.tsdKeys key { s.tsdKeys key with generation := generation }
    given := Function.update s.given key (Function.update (s.given key) generation dtor) }

def State.storeDtor (s : State ι δ ν) (key : Key) (dtor : Option δ) : State ι δ ν :=
  { s with tsdKeys := Function.update s.tsdKeys key { s.tsdKeys key with dtor := dtor } }

/-- The loop of `pthread_key_create` goes on. -/
def nextKey (i : Key) (dtor : Option δ) : Pc δ :=
  if h : i.val + 1 < pthreadKeysMax then .createRead ⟨i.val + 1, h⟩ dtor else .out .eagain

/-- One access of `pthread_key_create` or `pthread_key_delete`. -/
def access (s : State ι δ ν) (t : ι) : Pc δ → State ι δ ν
  | .out result => s.goTo t (.out result)
  | .createRead i dtor =>
    let generation := s.generation i
    if keyAllocated generation = false ∧ generation ≠ uintMax - 1 then
      s.goTo t (.createSwap i generation dtor)
    else s.goTo t (nextKey i dtor)
  | .createSwap i generation dtor =>
    if s.generation i = generation then
      (s.swap i dtor).goTo t (.createStore i ((generation + 1) % 2 ^ 32) dtor)
    else s.goTo t (nextKey i dtor)
  | .createStore i _ dtor => (s.storeDtor i dtor).goTo t (.out (.key i))
  | .deleteSwap key generation =>
    if s.generation key = generation then
      (s.swap key none).goTo t (.deleteStore key ((generation + 1) % 2 ^ 32))
    else s.goTo t (.out .einval)
  | .deleteStore key _ => (s.storeDtor key none).goTo t (.out .ok)

/-- `pthread_key_delete` up to its read of `generation`. -/
def pthreadKeyDelete (s : State ι δ ν) (t : ι) (key : Int) : State ι δ ν :=
  match keyOf key with
  | none => s.goTo t (.out .einval)
  | some key =>
    let generation := s.generation key
    if keyAllocated generation then s.goTo t (.deleteSwap key generation)
    else s.goTo t (.out .einval)

/-- `pthread_setspecific` has succeeded with these values. -/
def State.set (s : State ι δ ν) (t : ι) (key : Key) (value : Option ν)
    (values : Option (Key → Entry ν)) : State ι δ ν :=
  let call := ⟨t, key, s.generation key, value⟩
  let thread := s.thread t
  { s with sets := call :: s.sets }.put t
    { thread with
      pc := .out .ok
      tsd := values
      touched := Function.update thread.touched key true }

def pthreadSetspecific (s : State ι δ ν) (t : ι) (key : Int) (value : Option ν) (callocOk : Bool) :
    State ι δ ν :=
  match keyOf key with
  | none => s.goTo t (.out .einval)
  | some key =>
    let generation := s.generation key
    if keyAllocated generation = false then s.goTo t (.out .einval)
    else
      match (s.thread t).tsd with
      | some values => s.set t key value (some (Function.update values key ⟨value, generation⟩))
      | none =>
        if value.isNone then s.set t key value none
        else if callocOk then
          let zeroes : Key → Entry ν := fun _ => ⟨none, 0⟩
          s.set t key value (some (Function.update zeroes key ⟨value, generation⟩))
        else s.goTo t (.out .enomem)

def State.exitTo (s : State ι δ ν) (t : ι) (exit : Exit δ) : State ι δ ν :=
  s.put t { s.thread t with exit := exit }

/-- A repetition of the loop begins. -/
def State.repeats (s : State ι δ ν) (t : ι) (repetition : Nat) : State ι δ ν :=
  s.put t { s.thread t with exit := .read repetition firstKey false, touched := fun _ => false }

/-- The loops of `__nc_tsd_exit` go on after `key`. -/
def State.advance (s : State ι δ ν) (t : ι) (repetition : Nat) (key : Key) (didAny : Bool) :
    State ι δ ν :=
  if h : key.val + 1 < pthreadKeysMax then
    s.exitTo t (.read repetition ⟨key.val + 1, h⟩ didAny)
  else if didAny ∧ repetition + 1 < pthreadDestructorIterations then s.repeats t (repetition + 1)
  else s.exitTo t (.free repetition)

def State.pass (s : State ι δ ν) (t : ι) (repetition : Nat) (key : Key) (values : Key → Entry ν)
    (value : ν) (dtor : δ) : State ι δ ν :=
  let generation := (values key).generation
  let call := ⟨t, key, generation, value, dtor⟩
  { s with passed := call :: s.passed }.put t
    { s.thread t with
      tsd := some (Function.update values key ⟨none, generation⟩)
      exit := .inside repetition key }

def ncTsdExit (s : State ι δ ν) (t : ι) : State ι δ ν :=
  match (s.thread t).tsd with
  | none => s.exitTo t .done
  | some _ => s.repeats t 0

/-- One access of `__nc_tsd_exit`, and what follows it up to the next or to a destructor. -/
def scan (s : State ι δ ν) (t : ι) : Option (State ι δ ν) :=
  match (s.thread t).exit, (s.thread t).tsd with
  | .read repetition key didAny, _ =>
    some (s.exitTo t (.got repetition key didAny (s.tsdKeys key).dtor))
  | .got repetition key didAny dtor, some values =>
    let generation := s.generation key
    match dtor, (values key).value with
    | some dtor, some value =>
      if keyAllocated generation ∧ (values key).generation = generation then
        some (s.pass t repetition key values value dtor)
      else some (s.advance t repetition key didAny)
    | _, _ => some (s.advance t repetition key didAny)
  | .free _, _ => some (s.put t { s.thread t with tsd := none, exit := .done })
  | _, _ => none

/-! ## Runs -/

inductive Event (ι δ ν : Type) where
  | create (t : ι) (dtor : Option δ)
  | delete (t : ι) (key : Int)
  | set (t : ι) (key : Int) (value : Option ν) (callocOk : Bool)
  /-- The next access of the call that `t` is in. -/
  | go (t : ι)
  /-- `t` begins `__nc_tsd_exit`. -/
  | exit (t : ι)
  | scan (t : ι)
  /-- The destructor that `t` is in returns. -/
  | back (t : ι)

def Pc.isOut : Pc δ → Bool
  | .out _ => true
  | _ => false

/-- A thread that runs code of the program. -/
def Thread.calls (thread : Thread δ ν) : Bool :=
  match thread.exit with
  | .not | .inside .. => thread.pc.isOut
  | _ => false

def step (s : State ι δ ν) : Event ι δ ν → Option (State ι δ ν)
  | .create t dtor => if (s.thread t).calls then some (s.goTo t (.createRead firstKey dtor)) else none
  | .delete t key => if (s.thread t).calls then some (pthreadKeyDelete s t key) else none
  | .set t key value callocOk =>
    if (s.thread t).calls then some (pthreadSetspecific s t key value callocOk) else none
  | .go t =>
    if (s.thread t).pc.isOut then none else some (access s t (s.thread t).pc)
  | .exit t =>
    match (s.thread t).exit with
    | .not => if (s.thread t).calls then some (ncTsdExit s t) else none
    | _ => none
  | .scan t => scan s t
  | .back t =>
    match (s.thread t).exit with
    | .inside repetition key =>
      if (s.thread t).calls then some (s.advance t repetition key true) else none
    | _ => none

end Steps

/-! ## Values -/

variable [DecidableEq ι]

/-- The value that `t` has last set for an allocation of the key. -/
def State.lastSet (s : State ι δ ν) (t : ι) (key : Key) (generation : Nat) : Option ν :=
  (s.sets.find? fun call => call.thread = t ∧ call.key = key ∧ call.generation = generation).bind
    SetCall.value

/-- What a call in progress knows of the key. -/
def Pc.Knows (s : State ι δ ν) : Pc δ → Prop
  | .out _ | .createRead .. => True
  | .createSwap key generation _ =>
    keyAllocated generation = false ∧ generation ≠ uintMax - 1 ∧ generation ≤ s.generation key
  | .createStore key generation dtor =>
    generation ≤ s.generation key ∧ s.given key generation = dtor
  | .deleteSwap key generation => keyAllocated generation = true ∧ generation ≤ s.generation key
  | .deleteStore key generation =>
    generation ≤ s.generation key ∧ s.given key generation = none

/-- An entry holds what was last set for its generation, until a destructor gets it. -/
structure Entry.Holds (entry : Entry ν) (s : State ι δ ν) (t : ι) (key : Key) : Prop where
  generation : entry.generation ≤ s.generation key
  allocated : entry.value ≠ none → keyAllocated entry.generation = true
  last : entry.value = none ∨ s.lastSet t key entry.generation = entry.value

structure Inv (s : State ι δ ν) : Prop where
  bounded : ∀ key, s.generation key ≤ uintMax - 1
  knows : ∀ t, (s.thread t).pc.Knows s
  values : ∀ t values, (s.thread t).tsd = some values → ∀ key, (values key).Holds s t key
  passed : ∀ call ∈ s.passed, call.generation ≤ s.generation call.key ∧
    ⟨call.thread, call.key, call.generation, some call.value⟩ ∈ s.sets

/-- What the other threads see of a step of `t`. -/
structure Later (t : ι) (s s' : State ι δ ν) : Prop where
  generation : ∀ key, s.generation key ≤ s'.generation key
  given : ∀ key generation, generation ≤ s.generation key →
    s'.given key generation = s.given key generation
  sets : ∀ call ∈ s.sets, call ∈ s'.sets
  last : ∀ u, u ≠ t → ∀ key generation, s'.lastSet u key generation = s.lastSet u key generation
  others : ∀ u, u ≠ t → s'.thread u = s.thread u

variable {s s' : State ι δ ν} {pc : Pc δ} {t : ι}

theorem Pc.Knows.later (knows : pc.Knows s) (later : Later t s s') : pc.Knows s' := by
  cases pc with
  | out | createRead => exact trivial
  | createSwap key generation dtor =>
    exact ⟨knows.1, knows.2.1, knows.2.2.trans (later.generation key)⟩
  | deleteSwap key generation => exact ⟨knows.1, knows.2.trans (later.generation key)⟩
  | createStore key generation dtor | deleteStore key generation =>
    exact ⟨knows.1.trans (later.generation key),
      (later.given key generation knows.1).trans knows.2⟩

variable {key : Key} {u : ι}

theorem Entry.Holds.later {entry : Entry ν} (holds : entry.Holds s u key) (later : Later t s s')
    (same : s'.lastSet u key entry.generation = s.lastSet u key entry.generation) :
    entry.Holds s' u key := by
  refine ⟨holds.generation.trans (later.generation key), holds.allocated, ?_⟩
  rw [same]
  exact holds.last

/-- A step of `t` keeps the invariant if `t` itself does. -/
theorem Inv.later (inv : Inv s) (later : Later t s s')
    (bounded : ∀ key, s'.generation key ≤ uintMax - 1) (knows : (s'.thread t).pc.Knows s')
    (values : ∀ values, (s'.thread t).tsd = some values → ∀ key, (values key).Holds s' t key)
    (passed : ∀ call ∈ s'.passed, call ∈ s.passed ∨ call.generation ≤ s'.generation call.key ∧
      ⟨call.thread, call.key, call.generation, some call.value⟩ ∈ s'.sets) : Inv s' := by
  refine ⟨bounded, ?_, ?_, ?_⟩
  · intro u
    by_cases same : u = t
    · rw [same]
      exact knows
    · rw [later.others u same]
      exact (inv.knows u).later later
  · intro u entries has key
    by_cases same : u = t
    · subst same
      exact values entries has key
    · rw [later.others u same] at has
      exact (inv.values u entries has key).later later (later.last u same _ _)
  · intro call among
    cases passed call among with
    | inl old =>
      obtain ⟨generation, set⟩ := inv.passed call old
      exact ⟨generation.trans (later.generation call.key), later.sets _ set⟩
    | inr new => exact new

theorem Inv.init : Inv (State.init : State ι δ ν) := by
  refine ⟨?_, ?_, ?_, ?_⟩
  · intro key
    exact Nat.zero_le _
  · intro t
    exact trivial
  · intro t values has
    cases has
  · intro call among
    cases among

/-- A value that is found was last set for the allocation that the key has now. -/
theorem Inv.getspecific (inv : Inv s) (t : ι) {key : Int} {i : Key} (isKey : keyOf key = some i) :
    pthreadGetspecific s t key = none ∨
      pthreadGetspecific s t key = s.lastSet t i (s.generation i) := by
  cases has : (s.thread t).tsd with
  | none => simp [pthreadGetspecific, isKey, has]
  | some values =>
    simp only [pthreadGetspecific, isKey, has, Option.bind_some]
    by_cases same : (values i).generation = s.generation i
    · rw [← same]
      simp only [ne_eq, not_true_eq_false, if_false]
      exact (inv.values t values has i).last.imp_right Eq.symm
    · simp [same]

/-! ## What a step leaves alone -/

@[simp] theorem put_self (s : State ι δ ν) (t : ι) (thread : Thread δ ν) :
    (s.put t thread).thread t = thread := Function.update_self ..

theorem put_other (s : State ι δ ν) (other : u ≠ t) (thread : Thread δ ν) :
    (s.put t thread).thread u = s.thread u := Function.update_of_ne other ..

theorem Later.put (s : State ι δ ν) (t : ι) (thread : Thread δ ν) : Later t s (s.put t thread) := by
  refine ⟨fun _ => le_rfl, fun _ _ _ => rfl, fun _ among => among, fun _ _ _ _ => rfl, ?_⟩
  intro u other
  exact put_other s other thread

variable {thread : Thread δ ν}

/-- A step that changes no generation and sets no value. -/
theorem Inv.put (inv : Inv s) (knows : thread.pc.Knows s)
    (values : ∀ values, thread.tsd = some values → ∀ key, (values key).Holds s t key) :
    Inv (s.put t thread) := by
  have later := Later.put s t thread
  refine inv.later later inv.bounded ?_ ?_ fun _ among => .inl among
  · rw [put_self]
    exact knows.later later
  · rw [put_self]
    intro entries has key
    exact (values entries has key).later later rfl

theorem Inv.goTo (inv : Inv s) (knows : pc.Knows s) : Inv (s.goTo t pc) :=
  inv.put knows (inv.values t)

variable {exit : Exit δ}

theorem Inv.exitTo (inv : Inv s) : Inv (s.exitTo t exit) :=
  inv.put (inv.knows t) (inv.values t)

variable {repetition : Nat}

theorem Inv.repeats (inv : Inv s) : Inv (s.repeats t repetition) :=
  inv.put (inv.knows t) (inv.values t)

variable {didAny : Bool}

theorem Inv.advance (inv : Inv s) : Inv (s.advance t repetition key didAny) := by
  unfold State.advance
  split
  · exact inv.exitTo
  · split
    · exact inv.repeats
    · exact inv.exitTo

omit [DecidableEq ι] in
theorem nextKey_knows (s : State ι δ ν) (i : Key) (dtor : Option δ) : (nextKey i dtor).Knows s := by
  unfold nextKey
  split <;> exact trivial

/-! ## The generation of a key -/

omit [DecidableEq ι] in
theorem swap_generation_self (below : s.generation key < uintMax) (dtor : Option δ) :
    (s.swap key dtor).generation key = s.generation key + 1 := by
  simp only [State.swap, State.generation, Function.update_self] at below ⊢
  apply Nat.mod_eq_of_lt
  simp only [uintMax] at below
  omega

variable {other : Key}

omit [DecidableEq ι] in
theorem swap_generation_other (differ : other ≠ key) (dtor : Option δ) :
    (s.swap key dtor).generation other = s.generation other := by
  simp [State.swap, State.generation, differ]

omit [DecidableEq ι] in
theorem swap_given (below : s.generation key < uintMax) (dtor : Option δ) :
    (s.swap key dtor).given key (s.generation key + 1) = dtor := by
  have generation := swap_generation_self below dtor
  rw [← generation]
  simp [State.swap, State.generation]

omit [DecidableEq ι] in
theorem storeDtor_generation (s : State ι δ ν) (key other : Key) (dtor : Option δ) :
    (s.storeDtor key dtor).generation other = s.generation other := by
  by_cases same : other = key
  · simp [State.storeDtor, State.generation, same]
  · simp [State.storeDtor, State.generation, same]

theorem Later.swap {s : State ι δ ν} {key : Key} (below : s.generation key < uintMax)
    (dtor : Option δ) (t : ι) (thread : Thread δ ν) :
    Later t s ((s.swap key dtor).put t thread) := by
  refine ⟨?_, ?_, fun _ among => among, fun _ _ _ _ => rfl, ?_⟩
  · intro other
    by_cases same : other = key
    · rw [same]
      change _ ≤ (s.swap key dtor).generation key
      rw [swap_generation_self below dtor]
      exact Nat.le_succ _
    · exact (swap_generation_other same dtor).ge
  · intro other generation past
    by_cases same : other = key
    · have differ : generation ≠ (s.generation key + 1) % 2 ^ 32 := by
        rw [same] at past
        simp only [uintMax] at below
        omega
      rw [same]
      change Function.update s.given key (Function.update (s.given key) _ dtor) key generation = _
      rw [Function.update_self, Function.update_of_ne differ]
    · simp [State.put, State.swap, same]
  · intro u other
    exact put_other _ other thread

theorem Later.storeDtor (s : State ι δ ν) (key : Key) (dtor : Option δ) (t : ι)
    (thread : Thread δ ν) : Later t s ((s.storeDtor key dtor).put t thread) := by
  refine ⟨?_, fun _ _ _ => rfl, fun _ among => among, fun _ _ _ _ => rfl, ?_⟩
  · intro other
    exact (storeDtor_generation s key other dtor).ge
  · intro u other
    exact put_other _ other thread

/-- The compare-and-swap of a key that has a next generation. -/
theorem Inv.swap {s : State ι δ ν} {t : ι} {key : Key} {dtor : Option δ} {pc : Pc δ} (inv : Inv s)
    (next : s.generation key ≠ uintMax - 1)
    (knows : s.generation key + 1 ≤ (s.swap key dtor).generation key →
      (s.swap key dtor).given key (s.generation key + 1) = dtor → pc.Knows (s.swap key dtor)) :
    Inv ((s.swap key dtor).goTo t pc) := by
  have bounded := inv.bounded key
  have below : s.generation key < uintMax := by
    simp only [uintMax] at *
    omega
  have later : Later t s ((s.swap key dtor).goTo t pc) := Later.swap below dtor t _
  refine inv.later later ?_ ?_ ?_ fun _ among => .inl among
  · intro other
    by_cases same : other = key
    · rw [same]
      change (s.swap key dtor).generation key ≤ _
      rw [swap_generation_self below dtor]
      simp only [uintMax] at *
      omega
    · exact (swap_generation_other same dtor).trans_le (inv.bounded other)
  · simp only [State.goTo, put_self]
    apply (knows (swap_generation_self below dtor).ge (swap_given below dtor)).later
    exact Later.put _ t { s.thread t with pc := pc }
  · intro values has entry
    simp only [State.goTo, put_self] at has
    exact (inv.values t values has entry).later later rfl

variable {result : Result} {dtor : Option δ}

theorem Inv.storeDtor (inv : Inv s) : Inv ((s.storeDtor key dtor).goTo t (.out result)) := by
  have later : Later t s ((s.storeDtor key dtor).goTo t (.out result)) :=
    Later.storeDtor s key dtor t _
  refine inv.later later ?_ ?_ ?_ fun _ among => .inl among
  · intro other
    exact (storeDtor_generation s key other dtor).trans_le (inv.bounded other)
  · simp only [State.goTo, put_self]
    exact trivial
  · intro values has entry
    simp only [State.goTo, put_self] at has
    exact (inv.values t values has entry).later later rfl

theorem odd_ne_last {generation : Nat} (odd : keyAllocated generation = true) :
    generation ≠ uintMax - 1 := by
  rintro rfl
  cases odd

theorem Inv.access (inv : Inv s) (t : ι) : Inv (access s t (s.thread t).pc) := by
  have knows := inv.knows t
  cases pc : (s.thread t).pc with
  | out result => exact inv.goTo trivial
  | createRead i dtor =>
    simp only [Tsd.access]
    split
    · next free => exact inv.goTo ⟨free.1, free.2, le_rfl⟩
    · exact inv.goTo (nextKey_knows s i dtor)
  | createSwap i generation dtor =>
    rw [pc] at knows
    simp only [Tsd.access]
    split
    · next same =>
      have next : s.generation i + 1 < 2 ^ 32 := by
        have bounded := inv.bounded i
        simp only [uintMax] at bounded
        omega
      rw [← same] at knows ⊢
      rw [Nat.mod_eq_of_lt next]
      exact inv.swap knows.2.1 fun passed given => ⟨passed, given⟩
    · exact inv.goTo (nextKey_knows s i dtor)
  | createStore i generation dtor => exact inv.storeDtor
  | deleteSwap key generation =>
    rw [pc] at knows
    simp only [Tsd.access]
    split
    · next same =>
      have next : s.generation key + 1 < 2 ^ 32 := by
        have bounded := inv.bounded key
        simp only [uintMax] at bounded
        omega
      rw [← same] at knows ⊢
      rw [Nat.mod_eq_of_lt next]
      exact inv.swap (odd_ne_last knows.1) fun passed given => ⟨passed, given⟩
    · exact inv.goTo trivial
  | deleteStore key generation => exact inv.storeDtor

theorem Inv.pthreadKeyDelete (inv : Inv s) (t : ι) (key : Int) :
    Inv (pthreadKeyDelete s t key) := by
  unfold Tsd.pthreadKeyDelete
  split
  · exact inv.goTo trivial
  · dsimp only
    split
    · next allocated => exact inv.goTo ⟨allocated, le_rfl⟩
    · exact inv.goTo trivial

/-! ## Values that are set -/

theorem lastSet_cons_self (s : State ι δ ν) (t : ι) (key : Key) (generation : Nat)
    (value : Option ν) :
    ({ s with sets := ⟨t, key, generation, value⟩ :: s.sets } : State ι δ ν).lastSet t key generation =
      value := by
  simp [State.lastSet]

theorem lastSet_cons_other {generation past : Nat} (value : Option ν)
    (differ : ¬ (t = u ∧ key = other ∧ generation = past)) :
    ({ s with sets := ⟨t, key, generation, value⟩ :: s.sets } : State ι δ ν).lastSet u other past =
      s.lastSet u other past := by
  simp only [State.lastSet]
  rw [List.find?_cons_of_neg]
  simpa using differ

theorem mem_of_lastSet {generation : Nat} {value : ν}
    (last : s.lastSet t key generation = some value) :
    ⟨t, key, generation, some value⟩ ∈ s.sets := by
  obtain ⟨call, found, sets⟩ := Option.bind_eq_some_iff.mp last
  have same := List.find?_some found
  simp only [decide_eq_true_eq] at same
  obtain ⟨rfl, rfl, rfl⟩ := same
  rw [← sets]
  exact List.mem_of_find?_eq_some found

theorem Later.set (s : State ι δ ν) (t : ι) (key : Key) (value : Option ν)
    (values : Option (Key → Entry ν)) : Later t s (s.set t key value values) := by
  refine ⟨fun _ => le_rfl, fun _ _ _ => rfl, ?_, ?_, ?_⟩
  · intro call among
    exact List.mem_cons_of_mem _ among
  · intro u other entry generation
    exact lastSet_cons_other value fun same => other same.1.symm
  · intro u other
    exact put_other _ other _

variable {values : Option (Key → Entry ν)} {value : Option ν}

theorem Inv.set (inv : Inv s)
    (here : ∀ entries, values = some entries → entries key = ⟨value, s.generation key⟩)
    (allocated : keyAllocated (s.generation key) = true)
    (others : ∀ entries, values = some entries → ∀ other, other ≠ key →
      (entries other).Holds s t other) : Inv (s.set t key value values) := by
  have later := Later.set s t key value values
  refine inv.later later inv.bounded ?_ ?_ fun _ among => .inl among
  · simp only [State.set, put_self]
    exact trivial
  · intro entries has entry
    simp only [State.set, put_self] at has
    by_cases same : entry = key
    · rw [same, here entries has]
      exact ⟨le_rfl, fun _ => allocated, .inr (lastSet_cons_self s t key _ value)⟩
    · apply (others entries has entry same).later later
      exact lastSet_cons_other value fun alike => same alike.2.1.symm

theorem Inv.pthreadSetspecific (inv : Inv s) (t : ι) (key : Int) (value : Option ν)
    (callocOk : Bool) : Inv (pthreadSetspecific s t key value callocOk) := by
  unfold Tsd.pthreadSetspecific
  split
  · exact inv.goTo trivial
  · next i _ =>
    dsimp only
    split
    · exact inv.goTo trivial
    · next allocated =>
      have allocated : keyAllocated (s.generation i) = true := by simpa using allocated
      split
      · next values has =>
        apply inv.set _ allocated
        · rintro entries ⟨⟩ other differ
          rw [Function.update_of_ne differ]
          exact inv.values t values has other
        · rintro entries ⟨⟩
          exact Function.update_self ..
      · split
        · exact inv.set (by simp) allocated (by simp)
        · split
          · apply inv.set _ allocated
            · rintro entries ⟨⟩ other differ
              rw [Function.update_of_ne differ]
              exact ⟨Nat.zero_le _, fun has => absurd rfl has, .inl rfl⟩
            · rintro entries ⟨⟩
              exact Function.update_self ..
          · exact inv.goTo trivial

/-! ## A thread's exit -/

theorem Inv.ncTsdExit (inv : Inv s) (t : ι) : Inv (ncTsdExit s t) := by
  unfold Tsd.ncTsdExit
  split
  · exact inv.exitTo
  · exact inv.repeats

theorem Later.pass (s : State ι δ ν) (t : ι) (repetition : Nat) (key : Key)
    (values : Key → Entry ν) (value : ν) (dtor : δ) :
    Later t s (s.pass t repetition key values value dtor) := by
  refine ⟨fun _ => le_rfl, fun _ _ _ => rfl, fun _ among => among, fun _ _ _ _ => rfl, ?_⟩
  intro u other
  exact put_other _ other _

theorem Inv.pass {s : State ι δ ν} {t : ι} {repetition : Nat} {key : Key} {values : Key → Entry ν}
    {value : ν} {dtor : δ} (inv : Inv s) (has : (s.thread t).tsd = some values)
    (found : (values key).value = some value) : Inv (s.pass t repetition key values value dtor) := by
  have holds := inv.values t values has key
  have last := holds.last.resolve_left (by simp [found])
  have later := Later.pass s t repetition key values value dtor
  refine inv.later later inv.bounded ?_ ?_ ?_
  · simp only [State.pass, put_self]
    exact (inv.knows t).later later
  · intro entries set other
    simp only [State.pass, put_self, Option.some.injEq] at set
    rw [← set]
    by_cases same : other = key
    · rw [same, Function.update_self]
      exact ⟨holds.generation, fun kept => absurd rfl kept, .inl rfl⟩
    · rw [Function.update_of_ne same]
      exact (inv.values t values has other).later later rfl
  · intro call among
    cases List.mem_cons.mp among with
    | inr old => exact .inl old
    | inl new =>
      rw [new]
      exact .inr ⟨holds.generation, mem_of_lastSet (last.trans found)⟩

/-- What the read of `generation` leads to. -/
inductive Scans (s : State ι δ ν) (t : ι) : State ι δ ν → Prop where
  | read {repetition : Nat} {key : Key} {didAny} (exit : (s.thread t).exit = .read repetition key didAny) :
    Scans s t (s.exitTo t (.got repetition key didAny (s.tsdKeys key).dtor))
  | pass {repetition : Nat} {key : Key} {didAny values value dtor}
    (exit : (s.thread t).exit = .got repetition key didAny (some dtor))
    (has : (s.thread t).tsd = some values) (found : (values key).value = some value)
    (current : (values key).generation = s.generation key) :
    Scans s t (s.pass t repetition key values value dtor)
  | skip {repetition : Nat} {key : Key} {didAny dtor values}
    (exit : (s.thread t).exit = .got repetition key didAny dtor)
    (has : (s.thread t).tsd = some values)
    (none : (values key).value = none ∨ dtor = none ∨
      keyAllocated (s.generation key) = false ∨ (values key).generation ≠ s.generation key) :
    Scans s t (s.advance t repetition key didAny)
  | free {repetition : Nat} (exit : (s.thread t).exit = .free repetition) :
    Scans s t (s.put t { s.thread t with tsd := .none, exit := .done })

theorem scans_of_scan (scanned : scan s t = some s') : Scans s t s' := by
  unfold scan at scanned
  split at scanned
  · next repetition key didAny exit =>
    cases scanned
    exact .read exit
  · next repetition key didAny dtor values exit has =>
    dsimp only at scanned
    split at scanned
    · next dtor value found =>
      split at scanned
      · next current =>
        cases scanned
        exact .pass exit has found current.2
      · next other =>
        cases scanned
        apply Scans.skip exit has
        rw [not_and_or, Bool.not_eq_true] at other
        exact .inr (.inr other)
    · next missing =>
      cases scanned
      apply Scans.skip exit has
      by_contra kept
      simp only [not_or, Option.ne_none_iff_exists', ← ne_eq] at kept
      obtain ⟨⟨value, found⟩, ⟨dtor, isDtor⟩, -⟩ := kept
      exact missing dtor value isDtor found
  · next repetition exit =>
    cases scanned
    exact .free exit
  · cases scanned

theorem Inv.scan (inv : Inv s) (scans : Scans s t s') : Inv s' := by
  cases scans with
  | read => exact inv.exitTo
  | pass exit has found => exact inv.pass has found
  | skip => exact inv.advance
  | free => exact inv.put (inv.knows t) (by simp)

variable {event : Event ι δ ν}

theorem Inv.step (inv : Inv s) (stepped : step s event = some s') : Inv s' := by
  cases event with
  | create t dtor =>
    simp only [Tsd.step, Option.ite_none_right_eq_some, Option.some.injEq] at stepped
    rw [← stepped.2]
    exact inv.goTo trivial
  | delete t key =>
    simp only [Tsd.step, Option.ite_none_right_eq_some, Option.some.injEq] at stepped
    rw [← stepped.2]
    exact inv.pthreadKeyDelete t key
  | set t key value callocOk =>
    simp only [Tsd.step, Option.ite_none_right_eq_some, Option.some.injEq] at stepped
    rw [← stepped.2]
    exact inv.pthreadSetspecific t key value callocOk
  | go t =>
    simp only [Tsd.step, Option.ite_none_left_eq_some, Option.some.injEq] at stepped
    rw [← stepped.2]
    exact inv.access t
  | exit t =>
    cases exit : (s.thread t).exit with
    | not =>
      simp only [Tsd.step, exit, Option.ite_none_right_eq_some, Option.some.injEq] at stepped
      rw [← stepped.2]
      exact inv.ncTsdExit t
    | read | got | inside | free | done => simp [Tsd.step, exit] at stepped
  | scan t => exact inv.scan (scans_of_scan stepped)
  | back t =>
    cases exit : (s.thread t).exit with
    | inside repetition key =>
      simp only [Tsd.step, exit, Option.ite_none_right_eq_some, Option.some.injEq] at stepped
      rw [← stepped.2]
      exact inv.advance
    | not | read | got | free | done => simp [Tsd.step, exit] at stepped

/-! ## Destructors -/

/-- The store of `dtor` that is to come: the key, and the generation it is meant for. -/
def Pc.storing : Pc δ → Option (Key × Nat)
  | .createStore key generation _ | .deleteStore key generation => some (key, generation)
  | _ => none

/-- The call that has given the key its generation has stored `dtor`. -/
def Stored (s : State ι δ ν) (key : Key) : Prop :=
  ∀ u, (s.thread u).pc.storing ≠ some (key, s.generation key)

/-- The exit of a thread need not come back to the key: there is no value, no allocation or no
    destructor, or a destructor has set the key. -/
def Settled (s : State ι δ ν) (thread : Thread δ ν) (values : Key → Entry ν) (key : Key) : Prop :=
  (values key).value = none ∨ (values key).generation ≠ s.generation key ∨
    s.given key (values key).generation = none ∨ thread.touched key = true

def Thread.Proper (s : State ι δ ν) (thread : Thread δ ν) : Prop :=
  ∀ values, thread.tsd = some values →
    match thread.exit with
    | .not | .done => True
    | .read _ key didAny =>
      (∀ other < key, Settled s thread values other) ∧
        (didAny = false → thread.touched = fun _ => false)
    | .got _ key didAny dtor =>
      (∀ other < key, Settled s thread values other) ∧
        (didAny = false → thread.touched = fun _ => false) ∧
        ((values key).value ≠ none → (values key).generation = s.generation key →
          dtor = s.given key (s.generation key))
    | .inside _ key => ∀ other ≤ key, Settled s thread values other
    | .free repetition =>
      (∀ other, Settled s thread values other) ∧
        (repetition + 1 < pthreadDestructorIterations → thread.touched = fun _ => false)

structure Tidy (s : State ι δ ν) : Prop where
  dtor : ∀ key, keyAllocated (s.generation key) = true → Stored s key →
    (s.tsdKeys key).dtor = s.given key (s.generation key)
  proper : ∀ t, (s.thread t).Proper s
  passed : ∀ call ∈ s.passed, s.given call.key call.generation = some call.dtor

theorem Settled.later {values : Key → Entry ν} (settled : Settled s thread values key)
    (later : Later t s s') (past : (values key).generation ≤ s.generation key) :
    Settled s' thread values key := by
  have grows := later.generation key
  cases settled with
  | inl none => exact .inl none
  | inr settled =>
    cases settled with
    | inl other => exact .inr (.inl (by omega))
    | inr settled =>
      rw [← later.given key _ past] at settled
      exact .inr (.inr settled)

theorem Thread.Proper.later (proper : thread.Proper s) (later : Later t s s')
    (past : ∀ values, thread.tsd = some values → ∀ key,
      (values key).generation ≤ s.generation key) : thread.Proper s' := by
  intro values has
  have before := proper values has
  have settled : ∀ key, Settled s thread values key → Settled s' thread values key :=
    fun key settled => settled.later later (past values has key)
  cases exit : thread.exit with
  | not | done => exact trivial
  | read repetition key didAny =>
    simp only [exit] at before ⊢
    exact ⟨fun other lower => settled other (before.1 other lower), before.2⟩
  | got repetition key didAny dtor =>
    simp only [exit] at before ⊢
    refine ⟨fun other lower => settled other (before.1 other lower), before.2.1, ?_⟩
    intro kept current
    have same : (values key).generation = s.generation key :=
      (past values has key).antisymm ((later.generation key).trans current.ge)
    rw [before.2.2 kept same, ← current, same, later.given key _ le_rfl]
  | inside repetition key =>
    simp only [exit] at before ⊢
    exact fun other lower => settled other (before other lower)
  | free repetition =>
    simp only [exit] at before ⊢
    exact ⟨fun other => settled other (before.1 other), before.2⟩

/-- A step of `t` keeps the destructors in order if `t` itself does. -/
theorem Tidy.later (tidy : Tidy s) (inv : Inv s) (later : Later t s s')
    (dtor : ∀ key, keyAllocated (s'.generation key) = true → Stored s' key →
      (s'.tsdKeys key).dtor = s'.given key (s'.generation key)) (proper : (s'.thread t).Proper s')
    (passed : ∀ call ∈ s'.passed, call ∈ s.passed ∨
      s'.given call.key call.generation = some call.dtor) : Tidy s' := by
  refine ⟨dtor, ?_, ?_⟩
  · intro u
    by_cases same : u = t
    · rw [same]
      exact proper
    · rw [later.others u same]
      exact (tidy.proper u).later later fun values has key => (inv.values u values has key).generation
  · intro call among
    cases passed call among with
    | inl old =>
      rw [later.given call.key _ (inv.passed call old).1]
      exact tidy.passed call old
    | inr new => exact new

/-- A step of `t` that leaves the keys alone, and is no store of a destructor. -/
theorem Tidy.frame (tidy : Tidy s) (inv : Inv s) (later : Later t s s')
    (keys : s'.tsdKeys = s.tsdKeys)
    (storing : ∀ key, (s.thread t).pc.storing = some key → (s'.thread t).pc.storing = some key)
    (proper : (s'.thread t).Proper s') (passed : ∀ call ∈ s'.passed, call ∈ s.passed ∨
      s'.given call.key call.generation = some call.dtor) : Tidy s' := by
  apply tidy.later inv later _ proper passed
  intro key allocated stored
  have generation : s'.generation key = s.generation key := by rw [State.generation, keys]; rfl
  rw [generation] at allocated ⊢
  rw [later.given key _ le_rfl, keys]
  apply tidy.dtor key allocated
  intro u pending
  apply stored u
  rw [generation]
  by_cases same : u = t
  · rw [same] at pending ⊢
    exact storing _ pending
  · rwa [later.others u same]

theorem Tidy.put (tidy : Tidy s) (inv : Inv s)
    (storing : ∀ key, (s.thread t).pc.storing = some key → thread.pc.storing = some key)
    (proper : thread.Proper s) : Tidy (s.put t thread) := by
  have later := Later.put s t thread
  refine tidy.frame inv later rfl ?_ ?_ fun _ among => .inl among
  · rwa [put_self]
  · rw [put_self]
    exact proper

theorem Tidy.goTo (tidy : Tidy s) (inv : Inv s) (idle : (s.thread t).pc.storing = none) :
    Tidy (s.goTo t pc) := by
  refine tidy.put inv ?_ ?_
  · intro key pending
    rw [idle] at pending
    cases pending
  · exact tidy.proper t

theorem storing_of_isOut (out : pc.isOut = true) : pc.storing = none := by
  cases pc with
  | out => rfl
  | createRead | createSwap | createStore | deleteSwap | deleteStore => cases out

theorem storing_of_calls (calls : thread.calls = true) : thread.pc.storing = none := by
  unfold Thread.calls at calls
  split at calls
  · exact storing_of_isOut calls
  · exact storing_of_isOut calls
  · cases calls

theorem Tidy.exitTo (tidy : Tidy s) (inv : Inv s)
    (proper : Thread.Proper s { s.thread t with exit := exit }) : Tidy (s.exitTo t exit) :=
  tidy.put inv (fun _ pending => pending) proper

theorem Tidy.repeats (tidy : Tidy s) (inv : Inv s) : Tidy (s.repeats t repetition) := by
  refine tidy.put inv (fun _ pending => pending) ?_
  intro values has
  refine ⟨?_, fun _ => rfl⟩
  intro other lower
  exact absurd lower (Nat.not_lt_zero _)

/-- The loops go on when there is nothing more to do for the key. -/
theorem Tidy.advance (tidy : Tidy s) (inv : Inv s)
    (settled : ∀ values, (s.thread t).tsd = some values →
      ∀ other ≤ key, Settled s (s.thread t) values other)
    (untouched : didAny = false → (s.thread t).touched = fun _ => false) :
    Tidy (s.advance t repetition key didAny) := by
  unfold State.advance
  split
  · next more =>
    apply tidy.exitTo inv
    intro values has
    refine ⟨?_, untouched⟩
    intro other lower
    exact settled values has other (Nat.le_of_lt_succ lower)
  · next last =>
    split
    · exact tidy.repeats inv
    · next final =>
      apply tidy.exitTo inv
      intro values has
      refine ⟨?_, ?_⟩
      · intro other
        have small := other.isLt
        apply settled values has other
        change other.val ≤ key.val
        omega
      · intro again
        apply untouched
        cases didAny with
        | false => rfl
        | true => exact absurd ⟨rfl, again⟩ final

theorem Tidy.swap {s : State ι δ ν} {t : ι} {key : Key} {dtor : Option δ} {pc : Pc δ}
    (tidy : Tidy s) (inv : Inv s) (below : s.generation key < uintMax)
    (idle : (s.thread t).pc.storing = none)
    (pending : pc.storing = some (key, s.generation key + 1)) :
    Tidy ((s.swap key dtor).goTo t pc) := by
  have later : Later t s ((s.swap key dtor).goTo t pc) := Later.swap below dtor t _
  refine tidy.later inv later ?_ ?_ fun _ among => .inl among
  · intro other allocated stored
    by_cases same : other = key
    · have generation : ((s.swap key dtor).goTo t pc).generation key = s.generation key + 1 :=
        swap_generation_self below dtor
      have here := stored t
      rw [same, generation] at here
      simp only [State.goTo, put_self, pending] at here
      exact absurd rfl here
    · have generation : ((s.swap key dtor).goTo t pc).generation other = s.generation other :=
        swap_generation_other same dtor
      rw [generation] at allocated ⊢
      rw [later.given other _ le_rfl]
      have keys : ((s.swap key dtor).goTo t pc).tsdKeys other = s.tsdKeys other := by
        simp [State.goTo, State.put, State.swap, same]
      rw [keys]
      apply tidy.dtor other allocated
      intro u waits
      apply stored u
      rw [generation]
      by_cases isT : u = t
      · rw [isT, idle] at waits
        cases waits
      · rwa [State.goTo, put_other _ isT]
  · simp only [State.goTo, put_self]
    exact (tidy.proper t).later later fun values has key => (inv.values t values has key).generation

/-- A destructor is stored for the allocation it was given for, or for a key that is free, or one
    whose destructor is still to come. -/
theorem Tidy.storeDtor {generation : Nat} (tidy : Tidy s) (inv : Inv s)
    (pending : (s.thread t).pc.storing = some (key, generation))
    (isGiven : s.given key generation = dtor)
    (orderly : s.generation key = generation ∨ keyAllocated (s.generation key) = false ∨
      ¬ Stored s key) : Tidy ((s.storeDtor key dtor).goTo t (.out result)) := by
  have later : Later t s ((s.storeDtor key dtor).goTo t (.out result)) :=
    Later.storeDtor s key dtor t _
  have generations : ∀ other, ((s.storeDtor key dtor).goTo t (.out result)).generation other =
      s.generation other := fun other => storeDtor_generation s key other dtor
  have others : ∀ other, Stored ((s.storeDtor key dtor).goTo t (.out result)) other →
      ¬ Stored s other → (key, generation) = (other, s.generation other) := by
    intro other stored missing
    simp only [Stored, not_forall, not_not] at missing
    obtain ⟨u, waits⟩ := missing
    by_cases isT : u = t
    · rw [isT, pending] at waits
      exact Option.some.inj waits
    · have here := stored u
      rw [State.goTo, put_other _ isT] at here
      rw [← generations other] at waits
      exact absurd waits here
  refine tidy.later inv later ?_ ?_ fun _ among => .inl among
  · intro other allocated stored
    rw [generations other] at allocated ⊢
    rw [later.given other _ le_rfl]
    by_cases same : other = key
    · have current : s.generation key = generation := by
        cases orderly with
        | inl current => exact current
        | inr orderly =>
          cases orderly with
          | inl free =>
            rw [same, free] at allocated
            cases allocated
          | inr missing =>
            have pair := others key (same ▸ stored) missing
            simp only [Prod.mk.injEq, true_and] at pair
            exact pair.symm
      rw [same, current, isGiven]
      simp [State.goTo, State.put, State.storeDtor]
    · have keys : ((s.storeDtor key dtor).goTo t (.out result)).tsdKeys other = s.tsdKeys other := by
        simp [State.goTo, State.put, State.storeDtor, same]
      rw [keys]
      apply tidy.dtor other allocated
      by_contra missing
      have pair := others other stored missing
      simp only [Prod.mk.injEq] at pair
      exact same pair.1.symm
  · simp only [State.goTo, put_self]
    exact (tidy.proper t).later later fun values has key => (inv.values t values has key).generation

/-- A destructor is stored before the key is allocated again and has got its destructor, and a thread
    that exits with a value finds its allocation's destructor stored. -/
def Event.Orderly (s : State ι δ ν) : Event ι δ ν → Prop
  | .go t =>
    match (s.thread t).pc.storing with
    | some (key, generation) =>
      s.generation key = generation ∨ keyAllocated (s.generation key) = false ∨ ¬ Stored s key
    | none => True
  | .scan t =>
    match (s.thread t).exit, (s.thread t).tsd with
    | .read _ key _, some values =>
      (values key).value ≠ none → (values key).generation = s.generation key → Stored s key
    | _, _ => True
  | _ => True

theorem Tidy.access (tidy : Tidy s) (inv : Inv s) (orderly : (Event.go t : Event ι δ ν).Orderly s) :
    Tidy (access s t (s.thread t).pc) := by
  have knows := inv.knows t
  cases pc : (s.thread t).pc with
  | out result => exact tidy.goTo inv (by rw [pc]; rfl)
  | createRead i dtor =>
    simp only [Tsd.access]
    split <;> exact tidy.goTo inv (by rw [pc]; rfl)
  | createSwap i generation dtor | deleteSwap i generation =>
    simp only [Tsd.access]
    split
    · next same =>
      have bounded := inv.bounded i
      have below : s.generation i < uintMax := by
        simp only [uintMax] at *
        omega
      apply tidy.swap inv below (by rw [pc]; rfl)
      rw [same] at below ⊢
      rw [Nat.mod_eq_of_lt (by simp only [uintMax] at below; omega)]
      rfl
    · exact tidy.goTo inv (by rw [pc]; rfl)
  | createStore i generation dtor | deleteStore i generation =>
    rw [pc] at knows
    simp only [Event.Orderly, pc, Pc.storing] at orderly
    exact tidy.storeDtor inv (by rw [pc]; rfl) knows.2 orderly

theorem Tidy.pthreadKeyDelete (tidy : Tidy s) (inv : Inv s) (idle : (s.thread t).pc.storing = none)
    (key : Int) : Tidy (pthreadKeyDelete s t key) := by
  unfold Tsd.pthreadKeyDelete
  split
  · exact tidy.goTo inv idle
  · dsimp only
    split <;> exact tidy.goTo inv idle

/-- Only the key that is set changes, and the exit may leave it. -/
theorem Tidy.set (tidy : Tidy s) (inv : Inv s) (calls : (s.thread t).calls = true)
    (others : ∀ entries, values = some entries → ∀ other, other ≠ key →
      (entries other).value = none ∨
        ∃ before, (s.thread t).tsd = some before ∧ entries other = before other) :
    Tidy (s.set t key value values) := by
  refine tidy.frame inv (Later.set s t key value values) rfl ?_ ?_ fun _ among => .inl among
  · intro pending waits
    rw [storing_of_calls calls] at waits
    cases waits
  · intro entries has
    simp only [State.set, put_self] at has ⊢
    cases exit : (s.thread t).exit with
    | not | done => exact trivial
    | read | got | free => simp [Thread.calls, exit] at calls
    | inside repetition at_ =>
      simp only
      intro other lower
      by_cases same : other = key
      · refine .inr (.inr (.inr ?_))
        simp [same]
      · cases others entries has other same with
        | inl none => exact .inl none
        | inr kept =>
          obtain ⟨before, hadIt, alike⟩ := kept
          have proper := tidy.proper t before hadIt
          simp only [exit] at proper
          have settled := proper other lower
          have touched : Function.update (s.thread t).touched key true other =
              (s.thread t).touched other := Function.update_of_ne same ..
          unfold Settled at settled ⊢
          simp only [alike, touched]
          exact settled

theorem Tidy.pthreadSetspecific (tidy : Tidy s) (inv : Inv s) (calls : (s.thread t).calls = true)
    (key : Int) (value : Option ν) (callocOk : Bool) :
    Tidy (pthreadSetspecific s t key value callocOk) := by
  have idle := storing_of_calls calls
  unfold Tsd.pthreadSetspecific
  split
  · exact tidy.goTo inv idle
  · dsimp only
    split
    · exact tidy.goTo inv idle
    · split
      · next values has =>
        apply tidy.set inv calls
        rintro entries ⟨⟩ other differ
        exact .inr ⟨values, has, Function.update_of_ne differ ..⟩
      · split
        · exact tidy.set inv calls (by simp)
        · split
          · apply tidy.set inv calls
            rintro entries ⟨⟩ other differ
            rw [Function.update_of_ne differ]
            exact .inl rfl
          · exact tidy.goTo inv idle

theorem Tidy.ncTsdExit (tidy : Tidy s) (inv : Inv s) : Tidy (ncTsdExit s t) := by
  unfold Tsd.ncTsdExit
  split
  · exact tidy.exitTo inv fun _ _ => trivial
  · exact tidy.repeats inv

theorem Tidy.scan (tidy : Tidy s) (inv : Inv s) (scans : Scans s t s')
    (orderly : (Event.scan t : Event ι δ ν).Orderly s) : Tidy s' := by
  have proper := tidy.proper t
  cases scans with
  | @read repetition key didAny exit =>
    apply tidy.exitTo inv
    intro values has
    have present : (s.thread t).tsd = some values := has
    have before := proper values present
    simp only [Event.Orderly, exit, present] at orderly before
    refine ⟨before.1, before.2, ?_⟩
    intro kept current
    apply tidy.dtor key _ (orderly kept current)
    rw [← current]
    exact (inv.values t values has key).allocated kept
  | @pass repetition key didAny values value dtor exit has found current =>
    have before := proper values has
    simp only [exit] at before
    have isGiven : s.given key (values key).generation = some dtor := by
      rw [current]
      exact (before.2.2 (by simp [found]) current).symm
    have later := Later.pass s t repetition key values value dtor
    refine tidy.frame inv later rfl ?_ ?_ ?_
    · intro pending waits
      simpa only [State.pass, put_self] using waits
    · intro entries set
      simp only [State.pass, put_self, Option.some.injEq] at set ⊢
      rw [← set]
      intro other lower
      by_cases same : other = key
      · rw [same, Settled, Function.update_self]
        exact .inl rfl
      · have settled := before.1 other (lt_of_le_of_ne lower same)
        unfold Settled at settled ⊢
        rw [Function.update_of_ne same]
        exact settled
    · intro call among
      cases List.mem_cons.mp among with
      | inr old => exact .inl old
      | inl new =>
        rw [new]
        exact .inr isGiven
  | @skip repetition key didAny dtor values exit has none =>
    have before := proper values has
    simp only [exit] at before
    refine tidy.advance inv ?_ before.2.1
    intro entries has' other lower
    have same : values = entries := Option.some.inj (has.symm.trans has')
    subst same
    by_cases isKey : other = key
    · rw [isKey]
      by_cases missing : (values key).value = .none
      · exact .inl missing
      by_cases current : (values key).generation = s.generation key
      · have allocated := (inv.values t values has key).allocated missing
        rw [current] at allocated
        have noDtor : dtor = .none := by simpa [missing, allocated, current] using none
        refine .inr (.inr (.inl ?_))
        rw [current, ← before.2.2 missing current]
        exact noDtor
      · exact .inr (.inl current)
    · exact before.1 other (lt_of_le_of_ne lower isKey)
  | free exit =>
    refine tidy.put inv (fun _ pending => pending) ?_
    intro values has
    cases has

theorem Tidy.step (tidy : Tidy s) (inv : Inv s) (orderly : event.Orderly s)
    (stepped : step s event = some s') : Tidy s' := by
  cases event with
  | create t dtor =>
    simp only [Tsd.step, Option.ite_none_right_eq_some, Option.some.injEq] at stepped
    rw [← stepped.2]
    exact tidy.goTo inv (storing_of_calls stepped.1)
  | delete t key =>
    simp only [Tsd.step, Option.ite_none_right_eq_some, Option.some.injEq] at stepped
    rw [← stepped.2]
    exact tidy.pthreadKeyDelete inv (storing_of_calls stepped.1) key
  | set t key value callocOk =>
    simp only [Tsd.step, Option.ite_none_right_eq_some, Option.some.injEq] at stepped
    rw [← stepped.2]
    exact tidy.pthreadSetspecific inv stepped.1 key value callocOk
  | go t =>
    simp only [Tsd.step, Option.ite_none_left_eq_some, Option.some.injEq] at stepped
    rw [← stepped.2]
    exact tidy.access inv orderly
  | exit t =>
    cases exit : (s.thread t).exit with
    | not =>
      simp only [Tsd.step, exit, Option.ite_none_right_eq_some, Option.some.injEq] at stepped
      rw [← stepped.2]
      exact tidy.ncTsdExit inv
    | read | got | inside | free | done => simp [Tsd.step, exit] at stepped
  | scan t => exact tidy.scan inv (scans_of_scan stepped) orderly
  | back t =>
    cases exit : (s.thread t).exit with
    | inside repetition key =>
      simp only [Tsd.step, exit, Option.ite_none_right_eq_some, Option.some.injEq] at stepped
      rw [← stepped.2]
      refine tidy.advance inv ?_ (by simp)
      intro values has
      have before := tidy.proper t values has
      simpa only [exit] using before
    | not | read | got | free | done => simp [Tsd.step, exit] at stepped

omit [DecidableEq ι] in
theorem Tidy.init : Tidy (State.init : State ι δ ν) := by
  refine ⟨?_, ?_, ?_⟩
  · intro key allocated
    cases allocated
  · intro t values has
    cases has
  · intro call among
    cases among

/-- What a thread finds for a key is what it has last set for that allocation of it; destructors get
    values that were set for the allocation; and in a run in which the stores of destructors come in
    order, a key has its destructor, destructors get the values of their own allocations, and what an
    exit leaves has no allocation or no destructor any more, or was set in the last repetition. -/
theorem tsd_runs (events : List (Event ι δ ν)) (s : State ι δ ν)
    (run : events.foldlM step State.init = some s) :
    (∀ t key i, keyOf key = some i → pthreadGetspecific s t key = none ∨
      pthreadGetspecific s t key = s.lastSet t i (s.generation i)) ∧
    (∀ call ∈ s.passed, ⟨call.thread, call.key, call.generation, some call.value⟩ ∈ s.sets) ∧
    ((∀ pre event, pre ++ [event] <+: events → ∀ before,
        pre.foldlM step State.init = some before → event.Orderly before) →
      (∀ key, keyAllocated (s.generation key) = true → Stored s key →
        (s.tsdKeys key).dtor = s.given key (s.generation key)) ∧
      (∀ call ∈ s.passed, s.given call.key call.generation = some call.dtor) ∧
      ∀ t repetition values, (s.thread t).exit = .free repetition → (s.thread t).tsd = some values →
        ∀ key, (values key).value = none ∨ (values key).generation ≠ s.generation key ∨
          s.given key (values key).generation = none ∨
          pthreadDestructorIterations ≤ repetition + 1 ∧ (s.thread t).touched key = true) := by
  have inv : Inv s := @foldlM_invariant _ _ step Inv (fun _ _ => True)
    (fun _ _ _ inv _ stepped => inv.step stepped) events _ s Inv.init (fun _ _ _ _ _ => trivial) run
  refine ⟨fun t key i isKey => inv.getspecific t isKey, fun call among => (inv.passed call among).2, ?_⟩
  intro orderly
  have both := @foldlM_invariant _ _ step (fun s => Inv s ∧ Tidy s) (fun s event => event.Orderly s)
    (fun _ _ _ both orderly stepped =>
      ⟨both.1.step stepped, both.2.step both.1 orderly stepped⟩) events _ s ⟨Inv.init, Tidy.init⟩
    orderly run
  refine ⟨both.2.dtor, both.2.passed, ?_⟩
  intro t repetition values exit has key
  have proper := both.2.proper t values has
  simp only [exit] at proper
  refine (proper.1 key).imp_right (Or.imp_right (Or.imp_right fun touched => ⟨?_, touched⟩))
  by_contra early
  rw [proper.2 (by omega)] at touched
  cases touched

section Decidable

variable [Fintype ι]

instance (s : State ι δ ν) (key : Key) : Decidable (Stored s key) :=
  inferInstanceAs (Decidable (∀ _, _ ≠ _))

instance (s : State ι δ ν) : (event : Event ι δ ν) → Decidable (event.Orderly s)
  | .go t => by
    unfold Event.Orderly
    dsimp only
    split <;> infer_instance
  | .scan t => by
    unfold Event.Orderly
    dsimp only
    split <;> infer_instance
  | .create .. | .delete .. | .set .. | .exit _ | .back _ => .isTrue trivial

end Decidable

/-- A thread sets a key and exits. -/
def exitsWithValue (t u : Fin 2) : List (Event (Fin 2) Nat Nat) :=
  [.create t (some 1), .go t, .go t, .go t, .set u 0 (some 7) true, .exit u, .scan u, .scan u]

theorem tsd_runs_exitsWithValue : ∃ (s : State (Fin 2) Nat Nat) (call : Passed (Fin 2) Nat Nat),
    (exitsWithValue 0 1).foldlM step State.init = some s ∧ s.passed = [call] ∧
      s.given call.key call.generation = some call.dtor := by
  have seen : ((exitsWithValue 0 1).foldlM step State.init).map (fun s => s.passed) =
      some [⟨1, firstKey, 1, 7, 1⟩] := by rfl
  obtain ⟨s, run, passed⟩ := Option.map_eq_some_iff.mp seen
  have met : meets step (fun s event => event.Orderly s) State.init (exitsWithValue 0 1) = true := by
    decide +kernel
  exact ⟨s, _, run, passed,
    ((tsd_runs (exitsWithValue 0 1) s run).2.2 (cond_of_meets met)).2.1 _ (by simp [passed])⟩

/-- The repetition after which the values are freed. -/
def Exit.freeing : Exit δ → Option Nat
  | .free repetition => some repetition
  | _ => none

theorem freeing_eq (freeing : exit.freeing = some repetition) : exit = .free repetition := by
  cases exit with
  | free =>
    cases freeing
    rfl
  | not | read | got | inside | done => cases freeing

/-- Thread `t` frees the key; before it has stored `NULL`, thread `u` allocates it. -/
def storesLate (t u : Fin 2) : List (Event (Fin 2) Nat Nat) :=
  [.create t (some 1), .go t, .go t, .go t, .delete t 0, .go t, .create u (some 5), .go u, .go u,
    .go u, .go t]

/-- Thread `u` exits with a value for a key that thread `t` has freed. -/
def exitsWithStaleValue (t u : Fin 2) : List (Event (Fin 2) Nat Nat) :=
  [.create t (some 1), .go t, .go t, .go t, .set u 0 (some 7) true, .delete t 0, .go t, .go t, .exit u] ++
    List.replicate (2 * pthreadKeysMax) (.scan u)

set_option maxRecDepth 20000 in
theorem tsd_drops : (∃ s : State (Fin 2) Nat Nat, (storesLate 0 1).foldlM step State.init = some s ∧
      keyAllocated (s.generation firstKey) = true ∧ Stored s firstKey ∧
      s.given firstKey (s.generation firstKey) = some 5 ∧ (s.tsdKeys firstKey).dtor = none) ∧
    ∃ (s : State (Fin 2) Nat Nat) (repetition : Nat),
      (exitsWithStaleValue 0 1).foldlM step State.init = some s ∧
      (s.thread 1).exit = .free repetition ∧ s.lastSet 1 firstKey 1 = some 7 ∧ s.passed = [] := by
  have late : ((storesLate 0 1).foldlM step State.init).map (fun s =>
      (keyAllocated (s.generation firstKey), decide (Stored s firstKey),
        s.given firstKey (s.generation firstKey), (s.tsdKeys firstKey).dtor)) =
      some (true, true, some 5, none) := by decide +kernel
  have stale : ((exitsWithStaleValue 0 1).foldlM step State.init).map (fun s =>
      ((s.thread 1).exit.freeing, s.lastSet 1 firstKey 1, s.passed.length)) =
      some (some 0, some 7, 0) := by decide +kernel
  constructor
  · obtain ⟨s, run, here⟩ := Option.map_eq_some_iff.mp late
    simp only [Prod.mk.injEq, decide_eq_true_eq] at here
    exact ⟨s, run, here⟩
  · obtain ⟨s, run, here⟩ := Option.map_eq_some_iff.mp stale
    simp only [Prod.mk.injEq, List.length_eq_zero_iff] at here
    exact ⟨s, 0, run, freeing_eq here.1, here.2⟩

end SandboxTEE.Pthread.Tsd
