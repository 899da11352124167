import SandboxTEE.Xcall.Frames

/-! # Rules for frames

Inside a frame the pointer only goes down, and all that is in use lies at or above it
(`Descends`).  The rest of a wrapper closes the frame (`Closes`), and a whole wrapper leaves the
pointer and the frames as they were (`Restores`).
-/

namespace SandboxTEE.Xcall.Frames

open SandboxTEE.Lib (Traced FrameStep)
open SandboxTEE.Lib.Traced (emit run_bind)

/-! ## One block -/

/-- A size and an alignment, as the layout of a C type has them. -/
def Layout (size alignment : Nat) : Prop :=
  size < 2 ^ 64 ∧ ∃ k ≤ 64, alignment = 2 ^ k ∧ alignment ∣ size

variable {size : Nat}

theorem layout_bytes (bound : size < 2 ^ 64) : Layout size 1 :=
  ⟨bound, 0, Nat.zero_le _, rfl, Nat.one_dvd _⟩

variable {alignment : Nat}

/-- A block that is completely outside lies below the pointer: a size that wraps is never
    accepted, as the aligned block would end behind the end of the address space. -/
theorem ustackBelow_add_le {e : Enclave} {ustack : Nat} (layout : Layout size alignment)
    (outside : CompletelyOutside e (ustackBelow ustack size alignment) size) :
    ustackBelow ustack size alignment + size ≤ ustack := by
  obtain ⟨bound, k, small, rfl, words, rfl⟩ := layout
  have fits := outside.1
  rw [uintptrMax] at fits
  rw [ustackBelow, Nat.and_two_pow_sub_one_eq_mod, subWrap] at fits ⊢
  rw [Nat.mod_eq_of_lt bound] at fits ⊢
  by_cases large : 2 ^ 64 ≤ ustack
  · omega
  · by_cases room : 2 ^ k * words ≤ ustack
    · have sub : (ustack + 2 ^ 64 - 2 ^ k * words) % 2 ^ 64 = ustack - 2 ^ k * words := by
        rw [show ustack + 2 ^ 64 - 2 ^ k * words = ustack - 2 ^ k * words + 2 ^ 64 by omega,
          Nat.add_mod_right]
        exact Nat.mod_eq_of_lt (by omega)
      rw [sub]
      omega
    · have sub : (ustack + 2 ^ 64 - 2 ^ k * words) % 2 ^ 64 = ustack + 2 ^ 64 - 2 ^ k * words :=
        Nat.mod_eq_of_lt (by omega)
      have rest : (ustack + 2 ^ 64 - 2 ^ k * words) % 2 ^ k = ustack % 2 ^ k := by
        have : 2 ^ 64 = 2 ^ k * 2 ^ (64 - k) := by
          rw [← Nat.pow_add, Nat.add_sub_cancel' small]
        rw [Nat.sub_mul_mod (by omega), this, Nat.add_mul_mod_self_left]
      have := Nat.mod_le ustack (2 ^ k)
      rw [sub, rest] at fits
      omega

/-! ## Programs inside a frame -/

/-- All that is in use in a frame lies at or above the pointer. -/
def Below (ustack : Nat) (frame : List Block) : Prop := ∀ b ∈ frame, ustack ≤ b.addr

/-- Frames in which nothing is in use. -/
def Idle (frames : List (List Block)) : Prop := ∀ g ∈ frames, g = []

/-- The pointer and the open frames behind a program. -/
def effect (e : Enclave) {α : Type} (m : Framed α) (ustack : Nat) (frames : List (List Block)) :
    Nat × Option (List (List Block)) :=
  ((m.run ustack).state, framesAfter e frames (m.run ustack).events)

/-- A part of a wrapper that may take more blocks. -/
def Descends (e : Enclave) {α : Type} (m : Framed α) : Prop :=
  ∀ ustack frame outer, Below ustack frame → Idle outer → ∃ ustack' frame',
    effect e m ustack (frame :: outer) = (ustack', some (frame' :: outer)) ∧ Below ustack' frame'

/-- The rest of a wrapper from some point on. -/
def Closes (e : Enclave) (old : Nat) {α : Type} (m : Framed α) : Prop :=
  ∀ ustack frame outer, Below ustack frame → Idle outer →
    effect e m ustack (frame :: outer) = (old, some outer)

/-- A whole wrapper. -/
def Restores (e : Enclave) {α : Type} (m : Framed α) : Prop :=
  ∀ ustack outer, Idle outer → effect e m ustack outer = (ustack, some outer)

variable {α β : Type} {e : Enclave}

variable {f : α → Framed β} {m : Framed α}

theorem effect_bind {ustack ustack' : Nat} {frames frames' : List (List Block)}
    (first : effect e m ustack frames = (ustack', some frames')) :
    effect e (m >>= f) ustack frames = effect e (f (m.run ustack).result) ustack' frames' := by
  obtain ⟨rfl, after⟩ := Prod.mk.inj first
  rw [effect, run_bind]
  exact Prod.ext rfl (framesAfter_append _ after)

theorem effect_prepare_bind (f : Nat → Framed α) (ustack : Nat) (frames : List (List Block)) :
    effect e (sgxPrepareUstack e >>= f) ustack frames =
      effect e (f ustack) (prepared e ustack) ([] :: frames) := rfl

variable {old : Nat}

theorem Restores.closes (h : Restores e m) :
    Closes e old (do sgxResetUstack old; m) := fun _ _ outer _ idle => h old outer idle

theorem restores_pure (a : α) : Restores e (pure a) := fun _ _ _ => rfl

theorem restores_bind (first : Restores e m) (rest : ∀ a, Restores e (f a)) :
    Restores e (m >>= f) := by
  intro ustack outer idle
  rw [effect_bind (first ustack outer idle)]
  exact rest _ ustack outer idle

variable {p : Prop} {m' : Framed α}

theorem restores_ite [Decidable p] (h : Restores e m) (h' : Restores e m') :
    Restores e (if p then m else m') := by
  split
  · exact h
  · exact h'

theorem below_nil (ustack : Nat) : Below ustack [] := fun _ mem => nomatch mem

theorem restores_frame {f : Nat → Framed α} (h : ∀ old, Closes e old (f old)) :
    Restores e (sgxPrepareUstack e >>= f) := by
  intro ustack outer idle
  rw [effect_prepare_bind]
  exact h ustack _ [] outer (below_nil _) idle

theorem closes_done (old : Nat) (a : α) : Closes e old (do sgxResetUstack old; pure a) :=
  (restores_pure a).closes

theorem closes_bind (first : Descends e m) (rest : ∀ a, Closes e old (f a)) :
    Closes e old (m >>= f) := by
  intro ustack frame outer below idle
  obtain ⟨ustack', frame', after, below'⟩ := first ustack frame outer below idle
  rw [effect_bind after]
  exact rest _ ustack' frame' outer below' idle

theorem closes_ite [Decidable p] (h : Closes e old m) (h' : Closes e old m') :
    Closes e old (if p then m else m') := by
  split
  · exact h
  · exact h'

theorem descends_pure (a : α) : Descends e (pure a) :=
  fun ustack frame _ below _ => ⟨ustack, frame, rfl, below⟩

theorem descends_bind (first : Descends e m) (rest : ∀ a, Descends e (f a)) :
    Descends e (m >>= f) := by
  intro ustack frame outer below idle
  obtain ⟨ustack', frame', after, below'⟩ := first ustack frame outer below idle
  rw [effect_bind after]
  exact rest _ ustack' frame' outer below' idle

theorem descends_ite [Decidable p] (h : Descends e m) (h' : Descends e m') :
    Descends e (if p then m else m') := by
  split
  · exact h
  · exact h'

theorem descends_emit (ev : Access) (h : ev.frameStep = none) : Descends e (emit ev) := by
  intro ustack frame outer below _
  refine ⟨ustack, frame, Prod.ext rfl ?_, below⟩
  change framesAfter e _ [ev] = _
  rw [framesAfter, List.filterMap_cons_none h]
  rfl

theorem descends_alloc (layout : Layout size alignment) :
    Descends e (sgxAllocOnUstackAligned e size alignment) := by
  intro ustack frame outer below idle
  rw [effect, Traced.run, sgxAllocOnUstackAligned]
  split
  · exact ⟨ustack, frame, rfl, below⟩
  · next check =>
    have outside : CompletelyOutside e (ustackBelow ustack size alignment) size :=
      (check_iff_completelyOutside layout.1).mp (eq_true_of_ne_false check)
    have room := ustackBelow_add_le layout outside
    refine ⟨_, ⟨ustackBelow ustack size alignment, size⟩ :: frame, Prod.ext rfl ?_, ?_⟩
    · refine FrameStep.replay_take _ _ _ outside fun g mem b inside => ?_
      rcases List.mem_cons.mp mem with rfl | mem
      · exact .inl (Nat.le_trans room (below b inside))
      · rw [idle g mem] at inside
        cases inside
    · intro b mem
      rcases List.mem_cons.mp mem with rfl | mem
      · exact Nat.le_refl _
      · exact Nat.le_trans (by dsimp only; omega) (below b mem)

theorem descends_copyToUstack (ptr : Nat) (bound : size < 2 ^ 64) :
    Descends e (sgxCopyToUstack e ptr size) := by
  refine descends_ite (descends_pure 0) (descends_bind (descends_alloc (layout_bytes bound)) ?_)
  exact fun uptr => descends_ite
    (descends_bind (descends_emit _ rfl) fun _ => descends_pure uptr) (descends_pure uptr)

theorem descends_copyToEnclave (ptr maxsize uptr usize : Nat) :
    Descends e (sgxCopyToEnclave e ptr maxsize uptr usize) :=
  descends_ite (descends_pure false)
    (descends_bind (descends_emit _ rfl) fun _ => descends_pure true)

/-! ## The `ms` structure -/

/-- The first allocation of nearly all wrappers. -/
theorem closes_ms {f : Nat → Framed α} (layout : Layout size alignment)
    (rest : ∀ ms, Closes e old (f ms)) :
    Closes e old (sgxAllocOnUstackAligned e size alignment >>= f) :=
  closes_bind (descends_alloc layout) rest

/-- The call to the host between the store of the structure and the rest. -/
theorem closes_ocall {ms : Nat} {fields : List Int} {nr : OcallNr} (rest : Closes e old m) :
    Closes e old (do emit (.ms ms size fields); emit (.ocall nr ms); m) :=
  closes_bind (descends_emit _ rfl) fun _ => closes_bind (descends_emit _ rfl) fun _ => rest

end SandboxTEE.Xcall.Frames
