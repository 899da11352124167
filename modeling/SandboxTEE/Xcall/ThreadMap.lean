import Mathlib.Algebra.Group.Nat.Defs
import Mathlib.Data.Fintype.Basic
import SandboxTEE.Lib.Run

/-! # Thread slots (`sgx_thread.c`)

`map_tcs` and `unmap_tcs` by any number of threads, at the granularity of reads and writes of the
fields of `enclave_thread_map`; `current_tcs` is a thread's own.  Slot `i` begins with the page
`enclave_tcs + i`, and a page is named by its slot.

The test of a slot and its reservation are two steps (`Careful`), and `unmap_tcs` clears `tcs`, which
`map_tcs` needs (`Kept`).
-/

namespace SandboxTEE.Xcall.ThreadMap

open SandboxTEE.Lib

variable {n : Nat} {ι : Type}

/-- `struct thread_map`. -/
structure Entry (n : Nat) where
  tid : Nat
  tcs : Option (Fin n)

inductive Pc (n : Nat) where
  /-- Not in a call; whether the last call was a `map_tcs` that found no slot. -/
  | out (failed : Bool)
  /-- `map_tcs` is to read `tid` of slot `i`. -/
  | test (i : Fin n) (tid : Nat)
  | reserve (i : Fin n) (tid : Nat)
  /-- `current_tcs = enclave_thread_map[i].tcs`. -/
  | take (i : Fin n)
  /-- `unmap_tcs` is to write `tid`. -/
  | clearTid (i : Fin n)
  | clearTcs (i : Fin n)
deriving DecidableEq

structure Thread (n : Nat) where
  pc : Pc n
  currentTcs : Option (Fin n)
  /-- The slot the thread has reserved and not released. -/
  slot : Option (Fin n)

structure State (n : Nat) (ι : Type) where
  entry : Fin n → Entry n
  thread : ι → Thread n
  /-- `unmap_tcs` has written outside the table. -/
  astray : Bool

def createTcsMapper (n : Nat) (ι : Type) : State n ι where
  entry := fun i => ⟨0, some i⟩
  thread := fun _ => ⟨.out false, none, none⟩
  astray := false

/-- `current_tcs - enclave_tcs` as an `int`, where `current_tcs` is `NULL` and `enclave_tcs` is at
    this page. -/
def nullIndex (enclavePage : Nat) : Int := Int.bmod (-(enclavePage : Int)) (2 ^ 32)

section Steps

variable [DecidableEq ι]

def State.put (s : State n ι) (t : ι) (thread : Thread n) : State n ι :=
  { s with thread := Function.update s.thread t thread }

def State.goTo (s : State n ι) (t : ι) (pc : Pc n) : State n ι :=
  s.put t { s.thread t with pc := pc }

def State.write (s : State n ι) (i : Fin n) (entry : Entry n) : State n ι :=
  { s with entry := Function.update s.entry i entry }

/-- The loop of `map_tcs` goes on with slot `i`, if there is one. -/
def testFrom (n i tid : Nat) : Pc n :=
  if h : i < n then .test ⟨i, h⟩ tid else .out true

def unmapTcs (enclavePage : Nat) (s : State n ι) (t : ι) : State n ι :=
  match (s.thread t).currentTcs with
  | some i => s.put t { s.thread t with pc := .clearTid i, currentTcs := none }
  | none =>
    let index := nullIndex enclavePage
    if n ≤ index then s.goTo t (.out false)
    else if h : 0 ≤ index ∧ index < n then
      s.goTo t (.clearTid ⟨index.toNat, by omega⟩)
    else { s with astray := true }.goTo t (.out false)

/-- The next access to the table. -/
def access (s : State n ι) (t : ι) : Option (State n ι) :=
  match (s.thread t).pc with
  | .out _ => none
  | .test i tid =>
    some (s.goTo t (if (s.entry i).tid = 0 then .reserve i tid else testFrom n (i.val + 1) tid))
  | .reserve i tid =>
    let thread := s.thread t
    some ((s.write i { s.entry i with tid := tid }).put t
      { thread with pc := .take i, slot := some i })
  | .take i =>
    let tcs := (s.entry i).tcs
    some (s.put t { s.thread t with pc := .out tcs.isNone, currentTcs := tcs })
  | .clearTid i =>
    let thread := s.thread t
    some ((s.write i { s.entry i with tid := 0 }).put t
      { thread with pc := .clearTcs i, slot := none })
  | .clearTcs i => some ((s.write i { s.entry i with tcs := none }).goTo t (.out false))

inductive Event (ι : Type) where
  | map (t : ι) (tid : Nat)
  | unmap (t : ι)
  /-- The next access of the call that `t` is in. -/
  | go (t : ι)

def Event.thread : Event ι → ι
  | .map t _ | .unmap t | .go t => t

/-- A thread calls `map_tcs` when it has no slot. -/
def step (enclavePage : Nat) (s : State n ι) : Event ι → Option (State n ι)
  | .map t tid =>
    match (s.thread t).pc, (s.thread t).slot with
    | .out _, none => some (s.goTo t (testFrom n 0 tid))
    | _, _ => none
  | .unmap t =>
    match (s.thread t).pc with
    | .out _ => some (unmapTcs enclavePage s t)
    | _ => none
  | .go t => access s t

end Steps

/-- Somebody has reserved the slot. -/
def Held (s : State n ι) (i : Fin n) : Prop := ∃ t, (s.thread t).slot = some i

/-- A slot is reserved while it is free, for a thread with an id, and released by a thread that has a
    page. -/
def Careful (s : State n ι) : Event ι → Prop
  | .map _ tid => tid ≠ 0
  | .unmap t => (s.thread t).currentTcs ≠ none
  | .go t =>
    match (s.thread t).pc with
    | .reserve i _ => (s.entry i).tid = 0
    | _ => True

/-- `unmap_tcs` does not come to clear `tcs`, and it releases no slot that a `map_tcs` in progress has
    already passed. -/
def Kept (s : State n ι) : Event ι → Prop
  | .go t =>
    match (s.thread t).pc with
    | .clearTid i => ∀ u j tid, (s.thread u).pc = .test j tid → j ≤ i
    | .clearTcs _ => False
    | _ => True
  | _ => True

/-! ## No page for two threads -/

def Thread.Fits (thread : Thread n) : Prop :=
  match thread.pc with
  | .out _ => thread.currentTcs = thread.slot ∨ thread.currentTcs = none
  | .test _ tid | .reserve _ tid => tid ≠ 0 ∧ thread.slot = none ∧ thread.currentTcs = none
  | .take i | .clearTid i => thread.slot = some i ∧ thread.currentTcs = none
  | .clearTcs _ => thread.slot = none ∧ thread.currentTcs = none

structure Inv (s : State n ι) : Prop where
  fits : ∀ t, (s.thread t).Fits
  held : ∀ t i, (s.thread t).slot = some i → (s.entry i).tid ≠ 0
  alone : ∀ t u i, (s.thread t).slot = some i → (s.thread u).slot = some i → t = u
  page : ∀ i, (s.entry i).tcs = none ∨ (s.entry i).tcs = some i

theorem Inv.init : Inv (createTcsMapper n ι) := by
  refine ⟨?_, ?_, ?_, ?_⟩
  · intro t
    exact .inl rfl
  · intro t i reserved
    cases reserved
  · intro t u i reserved
    cases reserved
  · intro i
    exact .inr rfl

/-- A page belongs to the slot that its thread has reserved. -/
theorem Inv.slot {s : State n ι} (inv : Inv s) {t : ι} {i : Fin n}
    (has : (s.thread t).currentTcs = some i) : (s.thread t).slot = some i := by
  have fits := inv.fits t
  unfold Thread.Fits at fits
  cases pc : (s.thread t).pc with
  | out failed =>
    simp only [pc, has] at fits
    cases fits with
    | inl same => exact same.symm
    | inr none => cases none
  | test | reserve =>
    simp only [pc] at fits
    rw [fits.2.2] at has
    cases has
  | take | clearTid | clearTcs =>
    simp only [pc] at fits
    rw [fits.2] at has
    cases has

theorem Inv.onePage {s : State n ι} (inv : Inv s) {t u : ι} {i : Fin n}
    (has : (s.thread t).currentTcs = some i) (has' : (s.thread u).currentTcs = some i) : t = u :=
  inv.alone t u i (inv.slot has) (inv.slot has')

section Steps

variable [DecidableEq ι] {s s' : State n ι} {t : ι}

@[simp] theorem put_self (s : State n ι) (t : ι) (thread : Thread n) :
    (s.put t thread).thread t = thread := Function.update_self ..

theorem put_other (s : State n ι) {u : ι} (other : u ≠ t) (thread : Thread n) :
    (s.put t thread).thread u = s.thread u := Function.update_of_ne other ..

/-- The record of `t` and the table change; `t` keeps its slot, gets one that nobody has, or gives
    one up. -/
theorem Inv.change (inv : Inv s) (others : ∀ u, u ≠ t → s'.thread u = s.thread u)
    (fits : (s'.thread t).Fits) (held : ∀ i, (s'.thread t).slot = some i → (s'.entry i).tid ≠ 0 ∧
      ∀ u, u ≠ t → (s.thread u).slot ≠ some i)
    (kept : ∀ u, u ≠ t → ∀ i, (s.thread u).slot = some i → (s'.entry i).tid ≠ 0)
    (page : ∀ i, (s'.entry i).tcs = none ∨ (s'.entry i).tcs = some i) : Inv s' := by
  refine ⟨?_, ?_, ?_, page⟩
  · intro u
    by_cases same : u = t
    · rw [same]
      exact fits
    · rw [others u same]
      exact inv.fits u
  · intro u i reserved
    by_cases same : u = t
    · rw [same] at reserved
      exact (held i reserved).1
    · rw [others u same] at reserved
      exact kept u same i reserved
  · intro u v i reserved reserved'
    by_cases same : u = t
    · by_cases same' : v = t
      · rw [same, same']
      · rw [same] at reserved
        rw [others v same'] at reserved'
        exact absurd reserved' ((held i reserved).2 v same')
    · rw [others u same] at reserved
      by_cases same' : v = t
      · rw [same'] at reserved'
        exact absurd reserved ((held i reserved').2 u same)
      · rw [others v same'] at reserved'
        exact inv.alone u v i reserved reserved'

variable {i : Fin n}

omit [DecidableEq ι] in
/-- Nobody else has the slot of `t`. -/
theorem Inv.mine (inv : Inv s) (reserved : (s.thread t).slot = some i) (u : ι) (other : u ≠ t) :
    (s.thread u).slot ≠ some i := fun reserved' =>
  other (inv.alone u t i reserved' reserved)

variable {thread : Thread n}

theorem Inv.put (inv : Inv s) (fits : thread.Fits) (slot : thread.slot = (s.thread t).slot) :
    Inv (s.put t thread) := by
  refine inv.change (t := t) (fun u other => put_other s other thread) ?_ ?_ ?_ inv.page
  · rwa [put_self]
  · rw [put_self]
    intro i reserved
    rw [slot] at reserved
    exact ⟨inv.held t i reserved, inv.mine reserved⟩
  · intro u other i reserved
    exact inv.held u i reserved

variable {tid : Nat}

theorem testFrom_fits {i : Nat} (positive : tid ≠ 0) (free : thread.slot = none)
    (none : thread.currentTcs = none) : Thread.Fits { thread with pc := testFrom n i tid } := by
  unfold testFrom
  split
  · exact ⟨positive, free, none⟩
  · exact .inr none

omit [DecidableEq ι] in
theorem write_tcs (s : State n ι) (i j : Fin n) (tid : Nat) :
    ((s.write i { s.entry i with tid := tid }).entry j).tcs = (s.entry j).tcs := by
  by_cases same : j = i
  · simp [State.write, same]
  · simp [State.write, same]

omit [DecidableEq ι] in
theorem write_other (s : State n ι) {j : Fin n} (other : j ≠ i) (entry : Entry n) :
    (s.write i entry).entry j = s.entry j := Function.update_of_ne other ..

omit [DecidableEq ι] in
@[simp] theorem write_self (s : State n ι) (i : Fin n) (entry : Entry n) :
    (s.write i entry).entry i = entry := Function.update_self ..

theorem Inv.reserve (inv : Inv s) (pc : (s.thread t).pc = .reserve i tid)
    (free : (s.entry i).tid = 0) : Inv ((s.write i { s.entry i with tid := tid }).put t
      { s.thread t with pc := .take i, slot := some i }) := by
  have fits := inv.fits t
  simp only [Thread.Fits, pc] at fits
  have nobody : ∀ u, (s.thread u).slot ≠ some i := by
    intro u reserved
    exact inv.held u i reserved free
  refine inv.change (t := t) (fun u other => put_other _ other _) ?_ ?_ ?_ ?_
  · rw [put_self]
    exact ⟨rfl, fits.2.2⟩
  · rw [put_self]
    rintro j ⟨⟩
    refine ⟨?_, fun u _ => nobody u⟩
    change ((s.write i _).entry i).tid ≠ 0
    rw [write_self]
    exact fits.1
  · intro u other j reserved
    have apart : j ≠ i := by
      rintro rfl
      exact nobody u reserved
    change ((s.write i _).entry j).tid ≠ 0
    rw [write_other s apart]
    exact inv.held u j reserved
  · intro j
    change ((s.write i _).entry j).tcs = none ∨ ((s.write i _).entry j).tcs = some j
    rw [write_tcs]
    exact inv.page j

theorem Inv.clearTid (inv : Inv s) (pc : (s.thread t).pc = .clearTid i) :
    Inv ((s.write i { s.entry i with tid := 0 }).put t
      { s.thread t with pc := .clearTcs i, slot := none }) := by
  have fits := inv.fits t
  simp only [Thread.Fits, pc] at fits
  refine inv.change (t := t) (fun u other => put_other _ other _) ?_ ?_ ?_ ?_
  · rw [put_self]
    exact ⟨rfl, fits.2⟩
  · rw [put_self]
    intro j reserved
    cases reserved
  · intro u other j reserved
    have apart : j ≠ i := by
      rintro rfl
      exact inv.mine fits.1 u other reserved
    change ((s.write i _).entry j).tid ≠ 0
    rw [write_other s apart]
    exact inv.held u j reserved
  · intro j
    change ((s.write i _).entry j).tcs = none ∨ ((s.write i _).entry j).tcs = some j
    rw [write_tcs]
    exact inv.page j

theorem Inv.clearTcs (inv : Inv s) (pc : (s.thread t).pc = .clearTcs i) :
    Inv ((s.write i { s.entry i with tcs := none }).goTo t (.out false)) := by
  have fits := inv.fits t
  simp only [Thread.Fits, pc] at fits
  refine inv.change (t := t) (fun u other => put_other _ other _) ?_ ?_ ?_ ?_
  · rw [State.goTo, put_self]
    exact .inr fits.2
  · rw [State.goTo, put_self]
    intro j reserved
    have still : (s.thread t).slot = some j := reserved
    rw [fits.1] at still
    cases still
  · intro u other j reserved
    by_cases same : j = i
    · rw [same] at reserved ⊢
      change ((s.write i _).entry i).tid ≠ 0
      rw [write_self]
      exact inv.held u i reserved
    · change ((s.write i _).entry j).tid ≠ 0
      rw [write_other s same]
      exact inv.held u j reserved
  · intro j
    by_cases same : j = i
    · rw [same]
      change ((s.write i _).entry i).tcs = none ∨ _
      rw [write_self]
      exact .inl rfl
    · change ((s.write i _).entry j).tcs = none ∨ ((s.write i _).entry j).tcs = some j
      rw [write_other s same]
      exact inv.page j

theorem Inv.access (inv : Inv s) (careful : Careful s (.go t))
    (stepped : access s t = some s') : Inv s' := by
  have fits := inv.fits t
  unfold ThreadMap.access at stepped
  cases pc : (s.thread t).pc with
  | out failed => simp [pc] at stepped
  | test i tid =>
    simp only [pc, Option.some.injEq] at stepped
    simp only [Thread.Fits, pc] at fits
    rw [← stepped]
    refine inv.put ?_ rfl
    split
    · exact fits
    · exact testFrom_fits fits.1 fits.2.1 fits.2.2
  | reserve i tid =>
    simp only [pc, Option.some.injEq] at stepped
    simp only [Careful, pc] at careful
    rw [← stepped]
    exact inv.reserve pc careful
  | take i =>
    simp only [pc, Option.some.injEq] at stepped
    simp only [Thread.Fits, pc] at fits
    rw [← stepped]
    refine inv.put ?_ rfl
    cases inv.page i with
    | inl cleared => exact .inr cleared
    | inr page => exact .inl (page.trans fits.1.symm)
  | clearTid i =>
    simp only [pc, Option.some.injEq] at stepped
    rw [← stepped]
    exact inv.clearTid pc
  | clearTcs i =>
    simp only [pc, Option.some.injEq] at stepped
    rw [← stepped]
    exact inv.clearTcs pc

variable {enclavePage : Nat} {event : Event ι}

theorem Inv.step (inv : Inv s) (careful : Careful s event)
    (stepped : step enclavePage s event = some s') : Inv s' := by
  cases event with
  | map t tid =>
    simp only [ThreadMap.step] at stepped
    split at stepped
    · next failed pc slot =>
      cases stepped
      have fits := inv.fits t
      simp only [Thread.Fits, pc, slot, or_self] at fits
      exact inv.put (testFrom_fits careful slot fits) rfl
    · cases stepped
  | unmap t =>
    simp only [ThreadMap.step] at stepped
    split at stepped
    · next failed pc =>
      cases stepped
      cases has : (s.thread t).currentTcs with
      | none => exact absurd has careful
      | some i =>
        simp only [unmapTcs, has]
        exact inv.put ⟨inv.slot has, rfl⟩ rfl
    · cases stepped
  | go t => exact inv.access careful stepped

/-! ## Failures and pages that are released -/

/-- What holds as long as no page is cleared. -/
structure Full (s : State n ι) : Prop where
  pages : ∀ i, (s.entry i).tcs = some i
  held : ∀ i, (s.entry i).tid ≠ 0 → Held s i
  passed : ∀ t j tid, (s.thread t).pc = .test j tid → ∀ i < j, Held s i

omit [DecidableEq ι] in
theorem Full.init : Full (createTcsMapper n ι) := by
  refine ⟨fun _ => rfl, ?_, ?_⟩
  · intro i positive
    exact absurd rfl positive
  · intro t j tid pc
    cases pc

/-- A step of `t` after which the slots that scans have passed are still reserved. -/
theorem Full.change (full : Full s) (others : ∀ u, u ≠ t → s'.thread u = s.thread u)
    (pages : ∀ i, (s'.entry i).tcs = some i) (held : ∀ i, (s'.entry i).tid ≠ 0 → Held s' i)
    (scans : ∀ u, u ≠ t → ∀ j tid, (s.thread u).pc = .test j tid → ∀ i < j, Held s i → Held s' i)
    (scan : ∀ j tid, (s'.thread t).pc = .test j tid → ∀ i < j, Held s' i) : Full s' := by
  refine ⟨pages, held, ?_⟩
  intro u j tid pc i lower
  by_cases same : u = t
  · rw [same] at pc
    exact scan j tid pc i lower
  · rw [others u same] at pc
    exact scans u same j tid pc i lower (full.passed u j tid pc i lower)

theorem held_of_other (others : ∀ u, u ≠ t → s'.thread u = s.thread u)
    (mine : (s.thread t).slot = some i → (s'.thread t).slot = some i) (held : Held s i) :
    Held s' i := by
  obtain ⟨u, reserved⟩ := held
  by_cases same : u = t
  · rw [same] at reserved
    exact ⟨t, mine reserved⟩
  · refine ⟨u, ?_⟩
    rw [others u same]
    exact reserved

theorem Full.put (full : Full s) (slot : thread.slot = (s.thread t).slot)
    (scan : ∀ j tid, thread.pc = .test j tid → ∀ i < j, Held s i) : Full (s.put t thread) := by
  have others : ∀ u, u ≠ t → (s.put t thread).thread u = s.thread u :=
    fun u other => put_other s other thread
  have still : ∀ i, Held s i → Held (s.put t thread) i := by
    intro i held
    refine held_of_other others ?_ held
    rw [put_self, slot]
    exact id
  refine full.change others full.pages (fun i positive => still i (full.held i positive)) ?_ ?_
  · intro u other j tid pc i lower
    exact still i
  · rw [put_self]
    intro j tid pc i lower
    exact still i (scan j tid pc i lower)

theorem testFrom_test {i tid' : Nat} {j : Fin n} (pc : testFrom n i tid = .test j tid') :
    j.val = i := by
  unfold testFrom at pc
  split at pc
  · cases pc
    rfl
  · cases pc

theorem testFrom_failed {i : Nat} (pc : testFrom n i tid = .out true) : n ≤ i := by
  unfold testFrom at pc
  split at pc
  · cases pc
  · omega

omit [DecidableEq ι] in
/-- A slot that the scan finds reserved comes to those before it. -/
theorem Full.scanned (full : Full s) (pc : (s.thread t).pc = .test i tid)
    (taken : (s.entry i).tid ≠ 0) (j : Fin n) (lower : j.val < i.val + 1) : Held s j := by
  by_cases same : j = i
  · rw [same]
    exact full.held i taken
  · have apart : j.val ≠ i.val := fun equal => same (Fin.ext equal)
    exact full.passed t i tid pc j (Fin.lt_def.mpr (by omega))

theorem Full.access (full : Full s) (inv : Inv s) (kept : Kept s (.go t))
    (stepped : access s t = some s') : Full s' := by
  have fits := inv.fits t
  unfold ThreadMap.access at stepped
  cases pc : (s.thread t).pc with
  | out failed => simp [pc] at stepped
  | test i tid =>
    simp only [pc, Option.some.injEq] at stepped
    rw [← stepped]
    refine full.put rfl ?_
    intro j tid' there k lower
    split at there
    · cases there
    · next taken =>
      have position := testFrom_test there
      exact full.scanned pc taken k (position ▸ lower)
  | reserve i tid =>
    simp only [pc, Option.some.injEq] at stepped
    simp only [Thread.Fits, pc] at fits
    have others : ∀ u, u ≠ t → s'.thread u = s.thread u := by
      rw [← stepped]
      exact fun u other => put_other _ other _
    have mine : (s'.thread t).slot = some i := by rw [← stepped, put_self]
    have still : ∀ j, Held s j → Held s' j := by
      intro j held
      refine held_of_other others ?_ held
      rw [fits.2.1]
      intro none
      cases none
    refine full.change others ?_ ?_ ?_ ?_
    · rw [← stepped]
      intro j
      exact (write_tcs s i j tid).trans (full.pages j)
    · intro j positive
      by_cases same : j = i
      · rw [same]
        exact ⟨t, mine⟩
      · rw [← stepped] at positive
        change ((s.write i _).entry j).tid ≠ 0 at positive
        rw [write_other s same] at positive
        exact still j (full.held j positive)
    · intro u other j tid' there k lower
      exact still k
    · rw [← stepped, put_self]
      intro j tid' there
      cases there
  | take i =>
    simp only [pc, Option.some.injEq] at stepped
    rw [← stepped]
    refine full.put rfl ?_
    intro j tid there
    cases there
  | clearTid i =>
    simp only [pc, Option.some.injEq] at stepped
    simp only [Thread.Fits, pc] at fits
    simp only [Kept, pc] at kept
    have others : ∀ u, u ≠ t → s'.thread u = s.thread u := by
      rw [← stepped]
      exact fun u other => put_other _ other _
    have still : ∀ j, j ≠ i → Held s j → Held s' j := by
      intro j apart held
      refine held_of_other others ?_ held
      rw [fits.1]
      rintro ⟨⟩
      exact absurd rfl apart
    refine full.change others ?_ ?_ ?_ ?_
    · rw [← stepped]
      intro j
      exact (write_tcs s i j 0).trans (full.pages j)
    · intro j positive
      rw [← stepped] at positive
      change ((s.write i _).entry j).tid ≠ 0 at positive
      by_cases same : j = i
      · rw [same, write_self] at positive
        exact absurd rfl positive
      · rw [write_other s same] at positive
        exact still j same (full.held j positive)
    · intro u other j tid there k lower
      apply still k
      rintro rfl
      exact absurd (kept u j tid there) (not_le.mpr lower)
    · rw [← stepped, put_self]
      intro j tid there
      cases there
  | clearTcs i =>
    simp only [Kept, pc] at kept

theorem Full.step (full : Full s) (inv : Inv s) (careful : Careful s event) (kept : Kept s event)
    (stepped : step enclavePage s event = some s') : Full s' := by
  cases event with
  | map t tid =>
    simp only [ThreadMap.step] at stepped
    split at stepped
    · next failed pc slot =>
      cases stepped
      refine full.put rfl ?_
      intro j tid' there i lower
      have position := testFrom_test there
      exact absurd lower (by simp [Fin.lt_def, position])
    · cases stepped
  | unmap t =>
    simp only [ThreadMap.step] at stepped
    split at stepped
    · next failed pc =>
      cases stepped
      cases has : (s.thread t).currentTcs with
      | none => exact absurd has careful
      | some i =>
        simp only [unmapTcs, has]
        refine full.put rfl ?_
        intro j tid there
        cases there
    · cases stepped
  | go t => exact full.access inv kept stepped

/-- A call of `map_tcs` that ends without a page. -/
theorem Full.fails (full : Full s) (stepped : ThreadMap.step enclavePage s event = some s')
    (failed : (s'.thread event.thread).pc = .out true) (i : Fin n) : Held s i := by
  cases event with
  | map t tid =>
    simp only [ThreadMap.step] at stepped
    split at stepped
    · cases stepped
      simp only [Event.thread, State.goTo, put_self] at failed
      have none := testFrom_failed failed
      exact absurd i.isLt (by omega)
    · cases stepped
  | unmap t =>
    simp only [ThreadMap.step] at stepped
    split at stepped
    · cases stepped
      exfalso
      simp only [Event.thread, unmapTcs] at failed
      split at failed
      · simp at failed
      · split at failed
        · simp [State.goTo] at failed
        · split at failed <;> simp [State.goTo] at failed
    · cases stepped
  | go t =>
    simp only [ThreadMap.step, ThreadMap.access] at stepped
    cases pc : (s.thread t).pc with
    | out => simp [pc] at stepped
    | test j tid =>
      simp only [pc, Option.some.injEq] at stepped
      simp only [Event.thread, ← stepped, State.goTo, put_self] at failed
      split at failed
      · cases failed
      · next taken =>
        have all := testFrom_failed failed
        exact full.scanned pc taken i (by omega)
    | take j =>
      simp only [pc, Option.some.injEq] at stepped
      simp only [Event.thread, ← stepped, put_self, full.pages j] at failed
      cases failed
    | reserve j tid =>
      simp only [pc, Option.some.injEq] at stepped
      simp [Event.thread, ← stepped] at failed
    | clearTid j =>
      simp only [pc, Option.some.injEq] at stepped
      simp [Event.thread, ← stepped] at failed
    | clearTcs j =>
      simp only [pc, Option.some.injEq] at stepped
      simp [Event.thread, ← stepped, State.goTo] at failed

end Steps

/-- No two threads hold one page in any run that is careful; if no page is cleared and no slot
    released behind a scan, `map_tcs` fails only if every slot is reserved, and every free slot has
    its page. -/
theorem tcs_runs [DecidableEq ι] (enclavePage : Nat) (events : List (Event ι)) (s : State n ι)
    (run : events.foldlM (step enclavePage) (createTcsMapper n ι) = some s)
    (careful : ∀ pre event, pre ++ [event] <+: events → ∀ before,
      pre.foldlM (step enclavePage) (createTcsMapper n ι) = some before → Careful before event) :
    (∀ t u page, (s.thread t).currentTcs = some page → (s.thread u).currentTcs = some page → t = u) ∧
    ((∀ pre event, pre ++ [event] <+: events → ∀ before,
        pre.foldlM (step enclavePage) (createTcsMapper n ι) = some before → Kept before event) →
      (∀ event s', step enclavePage s event = some s' →
        (s'.thread event.thread).pc = .out true → ∀ i, Held s i) ∧
      ∀ i, (s.entry i).tid = 0 → (s.entry i).tcs = some i) := by
  have inv : Inv s := @foldlM_invariant _ _ (step enclavePage) Inv Careful
    (fun _ _ _ inv careful stepped => inv.step careful stepped) events _ s Inv.init careful run
  refine ⟨fun t u page => inv.onePage, ?_⟩
  intro kept
  have both := @foldlM_invariant _ _ (step enclavePage) (fun s => Inv s ∧ Full s)
    (fun s event => Careful s event ∧ Kept s event)
    (fun _ _ _ both cond stepped =>
      ⟨both.1.step cond.1 stepped, both.2.step both.1 cond.1 cond.2 stepped⟩) events _ s
    ⟨Inv.init, Full.init⟩
    (fun pre event within before ran =>
      ⟨careful pre event within before ran, kept pre event within before ran⟩) run
  exact ⟨fun event s' stepped failed => both.2.fails stepped failed, fun i _ => both.2.pages i⟩

section Decidable

instance (s : State n ι) : (event : Event ι) → Decidable (Careful s event)
  | .map _ tid => inferInstanceAs (Decidable (tid ≠ 0))
  | .unmap t => inferInstanceAs (Decidable ((s.thread t).currentTcs ≠ none))
  | .go t => by
    unfold Careful
    dsimp only
    split <;> infer_instance

end Decidable

/-- Two threads take the two slots. -/
def takesBoth (t u : Fin 2) : List (Event (Fin 2)) :=
  [.map t 10, .go t, .go t, .go t, .map u 11, .go u, .go u, .go u, .go u]

theorem tcs_runs_takesBoth : ∃ s : State 2 (Fin 2),
    (takesBoth 0 1).foldlM (step 16) (createTcsMapper 2 (Fin 2)) = some s ∧
      (s.thread 0).currentTcs = some 0 ∧ (s.thread 1).currentTcs = some 1 ∧
      ∀ t u page, (s.thread t).currentTcs = some page → (s.thread u).currentTcs = some page → t = u := by
  have seen : ((takesBoth 0 1).foldlM (step 16) (createTcsMapper 2 (Fin 2))).map (fun s =>
      ((s.thread 0).currentTcs, (s.thread 1).currentTcs)) = some (some 0, some 1) := by decide
  obtain ⟨s, run, here⟩ := Option.map_eq_some_iff.mp seen
  simp only [Prod.mk.injEq] at here
  have met : meets (step 16) Careful (createTcsMapper 2 (Fin 2)) (takesBoth 0 1) = true := by decide
  exact ⟨s, run, here.1, here.2, (tcs_runs 16 (takesBoth 0 1) s run (cond_of_meets met)).1⟩

/-- Both threads test the only slot before either reserves it. -/
def testsTogether (t u : Fin 2) : List (Event (Fin 2)) :=
  [.map t 10, .map u 11, .go t, .go u, .go t, .go u, .go t, .go u]

/-- A thread releases the only slot, and another asks for it. -/
def takesReleased (t u : Fin 2) : List (Event (Fin 2)) :=
  [.map t 10, .go t, .go t, .go t, .unmap t, .go t, .go t, .map u 11, .go u, .go u]

/-- Two threads hold the one page; and a `map_tcs` fails on a slot that was released. -/
theorem tcs_shared : (∃ s : State 1 (Fin 2),
      (testsTogether 0 1).foldlM (step 16) (createTcsMapper 1 (Fin 2)) = some s ∧
      (s.thread 0).currentTcs = some 0 ∧ (s.thread 1).currentTcs = some 0) ∧
    ∃ s s' : State 1 (Fin 2),
      (takesReleased 0 1).foldlM (step 16) (createTcsMapper 1 (Fin 2)) = some s ∧
      step 16 s (.go 1) = some s' ∧ (s'.thread 1).pc = .out true ∧ (s.thread 0).slot = none ∧
      (s.entry 0).tcs = none := by
  have shared : ((testsTogether 0 1).foldlM (step 16) (createTcsMapper 1 (Fin 2))).map (fun s =>
      ((s.thread 0).currentTcs, (s.thread 1).currentTcs)) = some (some 0, some 0) := by decide
  have released : ((takesReleased 0 1).foldlM (step 16) (createTcsMapper 1 (Fin 2))).map (fun s =>
      ((step 16 s (.go 1)).map fun s' => (s'.thread 1).pc, (s.thread 0).slot, (s.entry 0).tcs)) =
      some (some (.out true), none, none) := by decide
  constructor
  · obtain ⟨s, run, here⟩ := Option.map_eq_some_iff.mp shared
    simp only [Prod.mk.injEq] at here
    exact ⟨s, run, here⟩
  · obtain ⟨s, run, here⟩ := Option.map_eq_some_iff.mp released
    simp only [Prod.mk.injEq] at here
    obtain ⟨s', stepped, failed⟩ := Option.map_eq_some_iff.mp here.1
    exact ⟨s, s', run, stepped, failed, here.2⟩

end SandboxTEE.Xcall.ThreadMap
