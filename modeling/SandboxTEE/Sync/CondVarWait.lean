import SandboxTEE.Lib.Run
import SandboxTEE.Sync.Model

/-! # Waits on a condition variable

A wait with a mutex of its caller copies the mutex word, which is never zero there, into the
variable, and nothing ever clears it: the next such wait finds it and returns
`NACL_SYNC_MUTEX_INVALID`.  And the word that was copied is compared with the mutex, which a thread
that contends for it may have changed from `MUTEX_LOCKED` to `MUTEX_CONTENDED`.  As long as no wait
finds the variable in use or the mutex changed, waits do what they should
(`naClCondVarWait_undisturbed`).
-/

namespace SandboxTEE.Sync

open SandboxTEE.Lib
open SandboxTEE.Futex (NaClSyncStatus)

/-! ## Who holds the mutex where -/

def UnlockPc.holds : UnlockPc → Bool
  | .read | .write | .exchange => true
  | .spin _ | .raise _ | .wake => false

def WaitPc.holds : WaitPc → Bool
  | .seq | .check | .argument | .copy _ | .readCopy | .compare _ => true
  | .unlock pc => pc.holds
  | .park | .exchange | .wait => false

/-- A thread in no call may hold the mutex or not. -/
def Pc.holds : Pc → Option Bool
  | .idle => none
  | .lock _ => some false
  | .unlock pc => some pc.holds
  | .wait pc => some pc.holds

variable {ι : Type} {mu : LockWord ι} {m : Words ι} {natp : ι} {own : Bool}

theorem naClMutexLock_move (pc : LockPc) (outside : mu.holder ≠ some natp) :
    mu.Move (naClMutexLock mu natp pc).1 natp
      ((naClMutexLock mu natp pc).2.elim (fun _ => false) fun _ => true) := by
  have here : mu.holder = some natp ↔ false = true := by simp [outside]
  cases pc with
  | spin i =>
    simp only [naClMutexLock]
    split
    · next free => exact .take free (by decide)
    · split
      · exact .stay here
      · split
        · exact .stay here
        · exact .stay here
  | exchange =>
    by_cases free : mu.value = mutexUnlocked
    · simpa [naClMutexLock, free] using .take free (by decide)
    · simpa [naClMutexLock, free] using .contend free (by decide) here
  | wait => exact .stay here

theorem naClMutexUnlock_move (pc : UnlockPc) (here : mu.holder = some natp ↔ pc.holds = true) :
    mu.Move (naClMutexUnlock mu natp pc).1 natp
      ((naClMutexUnlock mu natp pc).2.elim UnlockPc.holds fun _ => false) := by
  cases pc with
  | read =>
    simp only [naClMutexUnlock]
    split
    · exact .stay here
    · exact .stay here
  | write => exact .release (here.mpr rfl)
  | exchange =>
    simp only [naClMutexUnlock]
    split
    · exact .release (here.mpr rfl)
    · exact .release (here.mpr rfl)
  | spin i =>
    simp only [naClMutexUnlock]
    split
    · split
      · exact .stay here
      · exact .stay here
    · exact .stay here
  | raise i =>
    simp only [naClMutexUnlock]
    split
    · exact .cmpxchg (by decide) (by decide) here
    · exact .cmpxchg (by decide) (by decide) here
  | wake => exact .stay here

variable {status : NaClSyncStatus}

theorem naClMutexUnlock_ok {pc : UnlockPc}
    (returned : (naClMutexUnlock mu natp pc).2 = .inr status) : status = .ok := by
  cases pc with
  | read | write => cases returned
  | wake =>
    cases returned
    rfl
  | exchange | raise i =>
    simp only [naClMutexUnlock] at returned
    split at returned
    · cases returned
      rfl
    · cases returned
  | spin i =>
    simp only [naClMutexUnlock] at returned
    split at returned
    · cases returned
    · cases returned

theorem naClCondVarWait_move (pc : WaitPc) (here : m.mu.holder = some natp ↔ pc.holds = true) :
    m.mu.Move (naClCondVarWait own m natp pc).1.mu natp
      ((naClCondVarWait own m natp pc).2.elim WaitPc.holds fun _ => true) := by
  cases pc with
  | seq =>
    cases own with
    | false => exact .stay here
    | true => exact .stay here
  | check | compare copied =>
    simp only [naClCondVarWait]
    split
    · exact .stay here
    · exact .stay here
  | argument | copy value | readCopy | park | wait => exact .stay here
  | unlock pc =>
    have move := naClMutexUnlock_move pc here
    simp only [naClCondVarWait]
    cases next : (naClMutexUnlock m.mu natp pc).2 with
    | inl pc' =>
      rw [next] at move
      exact move
    | inr ret =>
      cases naClMutexUnlock_ok next
      rw [next] at move
      exact move
  | exchange =>
    simp only [naClCondVarWait]
    split
    · next taken => exact .contend taken (by decide) here
    · next free => exact .take (not_not.mp free) (by decide)

/-! ## Undisturbed waits -/

/-- The variable is not in use, and the mutex has not changed since it was copied. -/
def WaitPc.Undisturbed (m : Words ι) : WaitPc → Prop
  | .check => m.cvMu = 0
  | .compare copied => copied = m.mu.value
  | _ => True

instance (m : Words ι) : (pc : WaitPc) → Decidable (pc.Undisturbed m)
  | .check | .compare _ => inferInstanceAs (Decidable (_ = _))
  | .seq | .argument | .copy _ | .readCopy | .unlock _ | .park | .exchange | .wait =>
    inferInstanceAs (Decidable True)

def Pc.Undisturbed (m : Words ι) : Pc → Prop
  | .wait pc => pc.Undisturbed m
  | .idle | .lock _ | .unlock _ => True

instance (m : Words ι) : (pc : Pc) → Decidable (pc.Undisturbed m)
  | .wait pc => inferInstanceAs (Decidable (pc.Undisturbed m))
  | .idle | .lock _ | .unlock _ => inferInstanceAs (Decidable True)

variable {pc : WaitPc}

/-- Such a wait comes back from its last loop only, with the mutex. -/
theorem naClCondVarWait_ok (free : pc.Undisturbed m)
    (returned : (naClCondVarWait own m natp pc).2 = .inr status) :
    status = .ok ∧ pc.holds = false := by
  cases pc with
  | check | compare copied =>
    simp only [naClCondVarWait, show _ = _ from free, ne_eq, not_true_eq_false, if_false] at returned
    cases returned
  | seq | argument | copy value | readCopy | park | wait => cases returned
  | unlock pc =>
    simp only [naClCondVarWait] at returned
    cases next : (naClMutexUnlock m.mu natp pc).2 with
    | inl pc' =>
      rw [next] at returned
      cases returned
    | inr ret =>
      cases naClMutexUnlock_ok next
      rw [next] at returned
      cases returned
  | exchange =>
    simp only [naClCondVarWait] at returned
    split at returned
    · cases returned
    · cases returned
      exact ⟨rfl, rfl⟩

/-! ## Waits come to their end -/

/-- A bound for the accesses that are left. -/
def UnlockPc.left : UnlockPc → Nat
  | .read => mutexSpinlockTimes * 2 * 2 + 3
  | .write | .exchange => mutexSpinlockTimes * 2 * 2 + 2
  | .spin i => (mutexSpinlockTimes * 2 - i) * 2 + 1
  | .raise i => (mutexSpinlockTimes * 2 - (i + 1)) * 2 + 2
  | .wake => 0

/-- The same, as long as nobody else holds the mutex in the last loop. -/
def WaitPc.left : WaitPc → Nat
  | .seq => mutexSpinlockTimes * 2 * 2 + 11
  | .check => mutexSpinlockTimes * 2 * 2 + 10
  | .argument => mutexSpinlockTimes * 2 * 2 + 9
  | .copy _ => mutexSpinlockTimes * 2 * 2 + 8
  | .readCopy => mutexSpinlockTimes * 2 * 2 + 7
  | .compare _ => mutexSpinlockTimes * 2 * 2 + 6
  | .unlock pc => pc.left + 2
  | .park | .wait => 1
  | .exchange => 0

theorem naClMutexUnlock_left {pc pc' : UnlockPc}
    (next : (naClMutexUnlock mu natp pc).2 = .inl pc') : pc'.left < pc.left := by
  cases pc with
  | read =>
    simp only [naClMutexUnlock] at next
    split at next
    · cases next
      simp [UnlockPc.left]
    · cases next
      simp [UnlockPc.left]
  | write =>
    cases next
    simp [UnlockPc.left]
  | exchange =>
    simp only [naClMutexUnlock] at next
    split at next
    · cases next
    · cases next
      simp [UnlockPc.left]
  | spin i =>
    simp only [naClMutexUnlock] at next
    split at next
    · next more =>
      split at next
      · cases next
        simp only [UnlockPc.left]
        omega
      · cases next
        simp only [UnlockPc.left]
        omega
    · cases next
      simp [UnlockPc.left]
  | raise i =>
    simp only [naClMutexUnlock] at next
    split at next
    · cases next
    · cases next
      simp [UnlockPc.left]
  | wake => cases next

theorem naClCondVarWait_left {pc' : WaitPc} (next : (naClCondVarWait own m natp pc).2 = .inl pc') :
    pc'.left < pc.left ∨ pc = .exchange ∧ m.mu.value ≠ 0 := by
  cases pc with
  | seq =>
    left
    cases next
    split
    · simp [WaitPc.left, UnlockPc.left]
    · simp [WaitPc.left]
  | check | compare copied =>
    left
    simp only [naClCondVarWait] at next
    split at next
    · cases next
    · cases next
      simp [WaitPc.left, UnlockPc.left]
  | argument | copy value | readCopy | park | wait =>
    left
    cases next
    simp [WaitPc.left]
  | unlock pc =>
    left
    simp only [naClCondVarWait] at next
    cases found : (naClMutexUnlock m.mu natp pc).2 with
    | inl pc' =>
      rw [found] at next
      cases next
      exact Nat.add_lt_add_right (naClMutexUnlock_left found) 2
    | inr ret =>
      cases naClMutexUnlock_ok found
      rw [found] at next
      cases next
      simp [WaitPc.left]
  | exchange =>
    right
    simp only [naClCondVarWait] at next
    split at next
    · next taken => exact ⟨rfl, taken⟩
    · cases next

/-! ## What runs keep -/

def Return.Right (r : Return ι) : Prop := r.status = .ok ∧ r.held = true ∧ r.released = true

structure Inv (s : State ι) : Prop where
  place : ∀ t b, (s.pc t).holds = some b → (s.words.mu.holder = some t ↔ b = true)
  gaveUp : ∀ t pc, s.pc t = .wait pc → pc.holds = false → s.released t = true
  right : ∀ r ∈ s.returns, r.call = .wait → r.Right

theorem inv_init : Inv (State.init : State ι) where
  place := fun _ _ known => by cases known
  gaveUp := fun _ _ inside => by cases inside
  right := fun _ member => by cases member

variable {s s' : State ι} [DecidableEq ι]

/-- The call that `natp` is in has given the mutex up when its access is done. -/
def State.releasedBy (s : State ι) (natp : ι) (words : Words ι) : Bool :=
  s.released natp || decide (s.words.mu.holder = some natp ∧ words.mu.holder = none)

variable {words : Words ι}

theorem Inv.advance {pcs : Type} {next : Next pcs} {wrap : pcs → Pc} {holds : pcs → Bool}
    {done : Bool} {call : Call} (inv : Inv s) (known : ∀ pc, (wrap pc).holds = some (holds pc))
    (move : s.words.mu.Move words.mu natp (next.elim holds fun _ => done))
    (gaveUp : ∀ a pc, next = .inl a → wrap a = .wait pc → pc.holds = false →
      s.releasedBy natp words = true) (right : ∀ status, next = .inr status → call = .wait →
      status = .ok ∧ done = true ∧ s.releasedBy natp words = true) :
    Inv (s.advance natp call words (next.map wrap id)) where
  place := fun t b there => by
    by_cases self : t = natp
    · subst self
      simp only [State.advance, Function.update_self] at there
      cases next with
      | inl pc =>
        rw [Sum.map_inl, Sum.elim_inl, id, known] at there
        cases there
        exact move.self
      | inr status => cases there
    · simp only [State.advance, Function.update_of_ne self] at there
      exact (move.other t self).trans (inv.place t b there)
  gaveUp := fun t pc inside outside => by
    by_cases self : t = natp
    · subst self
      simp only [State.advance, Function.update_self] at inside ⊢
      cases next with
      | inl a => exact gaveUp a pc rfl inside outside
      | inr status => cases inside
    · simp only [State.advance, Function.update_of_ne self] at inside ⊢
      exact inv.gaveUp t pc inside outside
  right := fun r member wait => by
    cases next with
    | inl pc => exact inv.right r member wait
    | inr status =>
      cases List.mem_append.mp member with
      | inl earlier => exact inv.right r earlier wait
      | inr now =>
        cases List.mem_singleton.mp now
        obtain ⟨ok, held, released⟩ := right status rfl wait
        refine ⟨ok, ?_, released⟩
        exact decide_eq_true (move.self.mpr held)

/-- The event finds no wait disturbed. -/
def Undisturbed (s : State ι) : Event ι → Prop
  | .call .. => True
  | .go natp => (s.pc natp).Undisturbed s.words

instance (s : State ι) : (e : Event ι) → Decidable (Undisturbed s e)
  | .call .. => inferInstanceAs (Decidable True)
  | .go natp => inferInstanceAs (Decidable ((s.pc natp).Undisturbed s.words))

theorem Inv.call (inv : Inv s) {call : Call} (entitled : Entitled s.words.mu natp call) :
    Inv { s with
      pc := Function.update s.pc natp call.entry
      released := Function.update s.released natp false } where
  place := fun t b known => by
    by_cases self : t = natp
    · subst self
      simp only [Function.update_self] at known
      cases call with
      | lock =>
        cases known
        exact iff_of_false entitled Bool.false_ne_true
      | unlock | wait =>
        cases known
        exact iff_of_true entitled rfl
    · simp only [Function.update_of_ne self] at known
      exact inv.place t b known
  gaveUp := fun t pc inside outside => by
    by_cases self : t = natp
    · subst self
      simp only [Function.update_self] at inside
      cases call with
      | lock | unlock => cases inside
      | wait =>
        cases inside
        cases outside
    · simp only [Function.update_of_ne self] at inside ⊢
      exact inv.gaveUp t pc inside outside
  right := inv.right

/-- A wait that does not hold the mutex behind an access has given it up. -/
theorem Inv.releasedBy (inv : Inv s) {after : Bool} (inside : s.pc natp = .wait pc)
    (move : s.words.mu.Move words.mu natp after) (outside : pc.holds = false ∨ after = false) :
    s.releasedBy natp words = true := by
  cases holds : pc.holds with
  | false => simp [State.releasedBy, inv.gaveUp natp pc inside holds]
  | true =>
    have before : s.words.mu.holder = some natp :=
      (inv.place natp true (by rw [inside, ← holds]; rfl)).mpr rfl
    cases outside with
    | inl not =>
      rw [holds] at not
      cases not
    | inr gone =>
      subst gone
      simp [State.releasedBy, before, move.holder_eq_none before]

theorem Inv.step (inv : Inv s) {e : Event ι} (free : Undisturbed s e)
    (stepped : step own s e = some s') : Inv s' := by
  cases e with
  | call natp call =>
    simp only [Sync.step] at stepped
    split at stepped
    · next enabled =>
      cases stepped
      exact inv.call enabled.2
    · cases stepped
  | go natp =>
    simp only [Sync.step] at stepped
    split at stepped
    · cases stepped
    · next pc inside =>
      cases stepped
      have outside := inv.place natp false (by rw [inside]; rfl)
      apply inv.advance (fun _ => rfl) (naClMutexLock_move pc (by simp [outside]))
      · rintro _ _ _ ⟨⟩
      · rintro _ _ ⟨⟩
    · next pc inside =>
      cases stepped
      have here := inv.place natp pc.holds (by rw [inside]; rfl)
      apply inv.advance (fun _ => rfl) (naClMutexUnlock_move pc here)
      · rintro _ _ _ ⟨⟩
      · rintro _ _ ⟨⟩
    · next pc inside =>
      cases stepped
      have here := inv.place natp pc.holds (by rw [inside]; rfl)
      have move := @naClCondVarWait_move _ _ _ own pc here
      apply inv.advance (fun _ => rfl) move
      · rintro pc' _ next ⟨⟩ outside
        apply inv.releasedBy inside move
        rw [next]
        exact .inr outside
      · intro status returned _
        simp only [Undisturbed, inside, Pc.Undisturbed] at free
        obtain ⟨ok, outside⟩ := naClCondVarWait_ok free returned
        exact ⟨ok, rfl, inv.releasedBy inside move (.inl outside)⟩

/-- The next access of a wait ends it or brings it closer to its end, unless somebody else holds
    the mutex that it tries to take back. -/
theorem Inv.wait_goes_on (inv : Inv s) (own : Bool) (inside : s.pc natp = .wait pc) :
    ∃ s', Sync.step own s (.go natp) = some s' ∧
      (s'.pc natp = .idle ∨ (∃ pc', s'.pc natp = .wait pc' ∧ pc'.left < pc.left) ∨
        pc = .exchange ∧ ∃ other, other ≠ natp ∧ s.words.mu.holder = some other) := by
  simp only [Sync.step, inside]
  refine ⟨_, rfl, ?_⟩
  simp only [State.advance, Function.update_self]
  cases next : (naClCondVarWait own s.words natp pc).2 with
  | inr status => exact .inl rfl
  | inl pc' =>
    right
    cases naClCondVarWait_left next with
    | inl closer => exact .inl ⟨pc', rfl, closer⟩
    | inr stays =>
      right
      obtain ⟨rfl, taken⟩ := stays
      obtain ⟨other, holds⟩ := LockWord.exists_holder taken
      refine ⟨rfl, other, ?_, holds⟩
      rintro rfl
      cases (inv.place other false (by rw [inside]; rfl)).mp holds

/-- In every run in which no wait finds the variable in use or the mutex changed behind its copy,
    every wait that has come back has returned `NACL_SYNC_OK` with the mutex, which it had given up
    in between; and whoever is in a wait is kept there by nothing but the host and another thread
    that holds the mutex. -/
theorem naClCondVarWait_undisturbed (own : Bool) {events : List (Event ι)} {s : State ι}
    (free : ∀ before e, before ++ [e] <+: events → ∀ t,
      before.foldlM (step own) State.init = some t → Undisturbed t e)
    (run : events.foldlM (step own) State.init = some s) :
    (∀ r ∈ s.returns, r.call = .wait → r.Right) ∧
    ∀ natp pc, s.pc natp = .wait pc → ∃ s', step own s (.go natp) = some s' ∧
      (s'.pc natp = .idle ∨ (∃ pc', s'.pc natp = .wait pc' ∧ pc'.left < pc.left) ∨
        pc = .exchange ∧ ∃ other, other ≠ natp ∧ s.words.mu.holder = some other) := by
  have inv : Inv s := foldlM_invariant (fun _ _ _ inv free stepped => inv.step free stepped)
    events State.init s inv_init free run
  exact ⟨inv.right, fun _ _ inside => inv.wait_goes_on own inside⟩

/-- A thread locks the mutex and waits once. -/
def oneWait (t : Fin 1) : List (Event (Fin 1)) :=
  .call t .lock :: .go t :: .call t .wait :: List.replicate 10 (.go t)

/-- And once more. -/
def twoWaits (t : Fin 1) : List (Event (Fin 1)) := oneWait t ++ [.call t .wait, .go t, .go t]

theorem naClCondVarWait_undisturbed_once :
    ∃ s, (oneWait 0).foldlM (step false) State.init = some s ∧
      s.returns.map (·.call) = [.lock, .wait] ∧ ∀ r ∈ s.returns, r.call = .wait → r.Right := by
  have ran : ((oneWait 0).foldlM (step false) State.init).map (·.returns.map (·.call)) =
      some [.lock, .wait] := by decide +kernel
  obtain ⟨s, ran, calls⟩ := Option.map_eq_some_iff.mp ran
  refine ⟨s, ran, calls, (naClCondVarWait_undisturbed false (cond_of_meets ?_) ran).1⟩
  decide +kernel

/-- The second wait of the same thread finds what the first one has left in the variable. -/
theorem naClCondVarWait_twice : ¬ ∀ (events : List (Event (Fin 1))) (s : State (Fin 1)),
    events.foldlM (step false) State.init = some s → ∀ r ∈ s.returns, r.call = .wait →
      r.Right := by
  intro all
  have ran : ((twoWaits 0).foldlM (step false) State.init).map (·.returns.getLast?) = some (some ⟨0, .wait, .mutexInvalid, true, false⟩) := by
    decide +kernel
  obtain ⟨s, ran, last⟩ := Option.map_eq_some_iff.mp ran
  cases (all _ s ran _ (List.mem_of_getLast? last) rfl).1

end SandboxTEE.Sync
