import SandboxTEE.HostDesc.FileHost
import SandboxTEE.Lib.Run

/-! # What leaves the enclave through keyed descriptors

Any host, over any run of writes and seeks.  The log of an access shows what was handed to
the host and which keystream positions were used.  `WriteFile` starts at position zero in
every call and `NaClHostDescPWrite` does not encrypt.
-/

namespace SandboxTEE.HostDesc

open SandboxTEE.Lib
open SandboxTEE.Lib.CallTree (AllCalls logged)
open SandboxTEE.Stdlib

inductive Access where
  | write (k : KeyedDesc) (buf : List Byte)
  | pwrite (k : KeyedDesc) (buf : List Byte) (offset : Int)
  | seek (k : KeyedDesc) (offset : Int) (whence : Nat)

namespace Access

def tree (errno : Nat) : Access → HostTree Int
  | write k buf => naClHostDescWrite errno k.desc buf
  | pwrite k buf offset => naClHostDescPWrite errno k.desc buf offset
  | seek k offset whence => naClHostDescSeek errno k.desc offset whence

def desc : Access → KeyedDesc
  | write k _ | pwrite k _ _ | seek k _ _ => k

def plaintext : Access → List Byte
  | write _ buf | pwrite _ buf _ => buf
  | seek .. => []

end Access

/-! ## The property -/

/-- The bytes that go to the host through `ocall_write` and `ocall_pwrite64`. -/
def handed : Call → List Byte
  | .host (.write _ buf) | .host (.pwrite64 _ buf _) => buf
  | _ => []

/-- Key, vector and position of every byte that is encrypted. -/
def streamUses : Call → List (List Byte × List Byte × Nat)
  | .wcAesCtrEncrypt key iv input => (List.range input.length).map fun pos => (key, iv, pos)
  | _ => []

/-- An access and the calls it made. -/
structure Performed where
  access : Access
  log : List (Call × Reply)

def Performed.uses (p : Performed) : List (List Byte × List Byte × Nat) :=
  p.log.flatMap fun e => streamUses e.1

/-- What the host gets is ciphertext of the plaintext of the access. -/
def Performed.Sealed (ks : Keystream) (p : Performed) : Prop :=
  ∀ e ∈ p.log, handed e.1 ≠ [] →
    (∃ reply, (.wcAesCtrEncrypt p.access.desc.key p.access.desc.iv p.access.plaintext, reply) ∈
      p.log) ∧
    handed e.1 <+: xorStream (ks p.access.desc.key p.access.desc.iv) p.access.plaintext

structure Confidential (ks : Keystream) (performed : List Performed) : Prop where
  ciphertext : ∀ p ∈ performed, p.Sealed ks
  once : (performed.flatMap Performed.uses).Nodup

/-! ## Runs -/

/-- `world` is everything behind the calls. -/
structure Session (σ : Type) where
  world : σ
  performed : List Performed
  alive : Bool

def Session.start {σ : Type} (world : σ) : Session σ :=
  { world := world, performed := [], alive := true }

def Session.uses {σ : Type} (s : Session σ) : List (List Byte × List Byte × Nat) :=
  s.performed.flatMap Performed.uses

/-- One access.  An abort ends the session, with what was handed over before it. -/
def Session.step {σ : Type} (serve : σ → Call → Reply × σ) (errno : σ → Nat) (s : Session σ)
    (a : Access) : Option (Session σ) :=
  if s.alive then
    let out := (a.tree (errno s.world)).run (logged serve) (s.world, [])
    some
      { world := out.2.1, performed := s.performed ++ [⟨a, out.2.2⟩], alive := out.1.isSome }
  else none

/-- wolfCrypt does what it documents; the rest of the world is arbitrary. -/
structure HonestCipher {σ : Type} (ks : Keystream) (serve : σ → Call → Reply × σ) : Prop where
  initialises : ∀ s, (serve s .wcInitRng).1.ret = 0
  keys : ∀ s key iv, (serve s (.wcAesSetKey key iv)).1.ret = 0
  encrypts : ∀ s key iv input,
    (serve s (.wcAesCtrEncrypt key iv input)).1 = { ret := 0, data := xorStream (ks key iv) input }

/-- A write finds its key and vector unused, a positional write has nothing to write. -/
def Session.Admits {σ : Type} (s : Session σ) : Access → Prop
  | .write k buf => buf = [] ∨ ¬ k.writable ∨ ∀ pos, (k.key, k.iv, pos) ∉ s.uses
  | .pwrite k buf _ => buf = [] ∨ ¬ k.writable
  | .seek .. => True

/-! ## The calls of an access -/

/-- A call that encrypts nothing and hands over at most the beginning of `out`. -/
def Carries (out : List Byte) (c : Call) : Prop := streamUses c = [] ∧ handed c <+: out

variable {out : List Byte}

theorem carries_sgxOcall (c : HostCall) (h : handed (.host c) <+: out) :
    AllCalls (Carries out) (sgxOcall c) := AllCalls.perform ⟨rfl, h⟩

theorem carries_withUntrustedBuf {limit count : Nat} {body : HostTree Reply}
    (h : AllCalls (Carries out) body) :
    AllCalls (Carries out) (withUntrustedBuf limit count body) := by
  have nothing : ∀ size, AllCalls (Carries out) (sgxOcall (.allocUntrusted size)) ∧
      AllCalls (Carries out) (sgxOcall (.unmapUntrusted size)) := fun size =>
    ⟨carries_sgxOcall _ List.nil_prefix, carries_sgxOcall _ List.nil_prefix⟩
  refine AllCalls.ite ((nothing _).1.bind fun alloc => AllCalls.ite (AllCalls.pure _ _) ?_) h
  exact h.bind fun reply =>
    AllCalls.ite ((nothing _).2.bind fun _ => AllCalls.pure _ _) (AllCalls.pure _ _)

theorem carries_ocallWrite (fd : Int) (buf : List Byte) :
    AllCalls (Carries buf) (ocallWrite fd buf) :=
  carries_withUntrustedBuf ((carries_sgxOcall (.write _ _) (List.take_prefix _ _)).bind fun _ =>
    AllCalls.ite (AllCalls.pure _ _) (AllCalls.pure _ _))

theorem carries_ocallPwrite64 (fd : Int) (buf : List Byte) (offset : Int) :
    AllCalls (Carries buf) (ocallPwrite64 fd buf offset) :=
  carries_withUntrustedBuf (carries_sgxOcall (.pwrite64 _ _ _) (List.take_prefix _ _))

theorem carries_pwrite (k : KeyedDesc) (errno : Nat) (buf : List Byte) (offset : Int) :
    AllCalls (Carries buf) (naClHostDescPWrite errno k.desc buf offset) := by
  have fcntl : ∀ cmd args, AllCalls (Carries buf) (ocallFcntl k.desc.d cmd args) := fun _ _ =>
    carries_sgxOcall _ List.nil_prefix
  have pwrite := carries_ocallPwrite64 k.desc.d buf offset
  rw [naClHostDescPWrite, k.checkValidity, CallTree.pure_bind_eq]
  refine AllCalls.ite (AllCalls.pure _ _) (AllCalls.ite ?_ ?_)
  · refine (fcntl _ _).bind fun origFlags => AllCalls.ite trivial ?_
    refine (fcntl _ _).bind fun cleared => AllCalls.ite trivial ?_
    refine pwrite.bind fun retval => (fcntl _ _).bind fun restored => AllCalls.ite trivial ?_
    exact AllCalls.ite (AllCalls.pure _ _) (AllCalls.pure _ _)
  · exact pwrite.bind fun retval => AllCalls.ite (AllCalls.pure _ _) (AllCalls.pure _ _)

theorem carries_seek (k : KeyedDesc) (errno : Nat) (offset : Int) (whence : Nat) :
    AllCalls (Carries []) (naClHostDescSeek errno k.desc offset whence) := by
  rw [naClHostDescSeek, k.checkValidity, CallTree.pure_bind_eq]
  exact (carries_sgxOcall (.lseek64 _ _ _) List.nil_prefix).bind fun retval =>
    AllCalls.ite (AllCalls.pure _ _) (AllCalls.pure _ _)

variable {σ : Type} {ks : Keystream} {serve : σ → Call → Reply × σ}

variable {p : Performed}

theorem sealed_of_carries_nil (h : ∀ e ∈ p.log, Carries [] e.1) : p.Sealed ks ∧ p.uses = [] :=
  ⟨fun e mem nonempty => absurd (List.prefix_nil.mp (h e mem).2) nonempty,
    List.flatMap_eq_nil_iff.mpr fun e mem => (h e mem).1⟩

/-- The calls of a write: the cipher is set up and run, and what it returned is carried out. -/
theorem log_write (honest : HonestCipher ks serve) (k : KeyedDesc) (errno : Nat)
    (buf : List Byte) (writable : k.writable) (s : σ) : ∃ r₁ r₂ r₃ new,
    ((naClHostDescWrite errno k.desc buf).run (logged serve) (s, [])).2.2 =
      (.wcInitRng, r₁) :: (.wcAesSetKey k.key k.iv, r₂) ::
        (.wcAesCtrEncrypt k.key k.iv buf, r₃) :: new ∧
    ∀ e ∈ new, Carries (xorStream (ks k.key k.iv) buf) e.1 := by
  have carried : AllCalls (Carries (xorStream (ks k.key k.iv) buf)) (do
      let retval ← ocallWrite k.desc.d (xorStream (ks k.key k.iv) buf)
      if retval.ret = -1 then pure (negXlate errno) else pure retval.ret) :=
    (carries_ocallWrite _ _).bind fun retval =>
      AllCalls.ite (AllCalls.pure _ _) (AllCalls.pure _ _)
  simp only [k.write_eq, if_pos writable, writeFile, CallTree.perform_bind, CallTree.run_call,
    logged, honest.initialises, honest.keys, honest.encrypts, ne_eq, not_true_eq_false, if_false,
    List.nil_append, List.cons_append]
  obtain ⟨new, eq, all⟩ := carried.run_logged _ _
  exact ⟨_, _, _, new, eq, all⟩

/-- A write uses the keystream from position zero on and hands over the ciphertext. -/
theorem sealed_write (honest : HonestCipher ks serve) (k : KeyedDesc) (errno : Nat)
    (buf : List Byte) (writable : k.writable) (s : σ) (access : p.access = .write k buf)
    (log : p.log = ((naClHostDescWrite errno k.desc buf).run (logged serve) (s, [])).2.2) :
    p.Sealed ks ∧ p.uses = (List.range buf.length).map fun pos => (k.key, k.iv, pos) := by
  obtain ⟨r₁, r₂, r₃, new, eq, carried⟩ := log_write honest k errno buf writable s
  rw [eq] at log
  have rest : new.flatMap (fun e => streamUses e.1) = [] :=
    List.flatMap_eq_nil_iff.mpr fun e mem => (carried e mem).1
  constructor
  · intro e mem nonempty
    rw [access]
    refine ⟨⟨r₃, by simp [log, Access.desc, Access.plaintext]⟩, ?_⟩
    simp only [log, List.mem_cons] at mem
    rcases mem with rfl | rfl | rfl | mem
    · exact absurd rfl nonempty
    · exact absurd rfl nonempty
    · exact absurd rfl nonempty
    · exact (carried e mem).2
  · simp only [Performed.uses, log, List.flatMap_cons, rest, List.append_nil]
    rfl

/-- An admitted access is sealed, and uses keystream that was unused, each byte once. -/
theorem sealed_of_admits (honest : HonestCipher ks serve) (errno : Nat) (s : Session σ) (a : Access)
    (admits : s.Admits a) (access : p.access = a)
    (log : p.log = ((a.tree errno).run (logged serve) (s.world, [])).2.2) :
    p.Sealed ks ∧ p.uses.Nodup ∧ p.uses.Disjoint s.uses := by
  have silent : (∀ e ∈ p.log, Carries [] e.1) →
      p.Sealed ks ∧ p.uses.Nodup ∧ p.uses.Disjoint s.uses := fun nothing => by
    obtain ⟨isSealed, uses⟩ := sealed_of_carries_nil nothing
    rw [uses]
    exact ⟨isSealed, List.nodup_nil, List.disjoint_nil_left _⟩
  cases a with
  | write k buf =>
    by_cases writable : k.writable
    · obtain ⟨isSealed, uses⟩ := sealed_write honest k errno buf writable s.world access log
      have injective : Function.Injective fun pos : Nat => (k.key, k.iv, pos) := fun i j eq =>
        (Prod.mk.inj (Prod.mk.inj eq).2).2
      rw [uses]
      refine ⟨isSealed, List.nodup_range.map injective, fun use mem old => ?_⟩
      obtain ⟨pos, inside, rfl⟩ := List.mem_map.mp mem
      rcases admits with rfl | readOnly | unused
      · exact absurd inside List.not_mem_nil
      · exact readOnly writable
      · exact unused pos old
    · refine silent fun e mem => ?_
      rw [log, Access.tree, k.write_eq, if_neg writable] at mem
      exact absurd mem List.not_mem_nil
  | pwrite k buf offset =>
    refine silent ?_
    rcases admits with rfl | readOnly
    · obtain ⟨new, eq, carried⟩ := (carries_pwrite k errno [] offset).run_logged s.world []
      rw [log, Access.tree, eq]
      exact carried
    · have denied : naClHostDescPWrite errno k.desc buf offset =
          pure (-(Runtime.naClAbiEBADF : Int)) := by
        rw [naClHostDescPWrite, k.checkValidity, CallTree.pure_bind_eq,
          if_pos (not_not.mp readOnly)]
      intro e mem
      rw [log, Access.tree, denied] at mem
      exact absurd mem List.not_mem_nil
  | seek k offset whence =>
    obtain ⟨new, eq, carried⟩ := (carries_seek k errno offset whence).run_logged s.world []
    refine silent ?_
    rw [log, Access.tree, eq]
    exact carried

/-! ## Runs of accesses -/

theorem confidential_step (honest : HonestCipher ks serve) (errno : σ → Nat) (s : Session σ)
    (a : Access) (s' : Session σ) (confidential : Confidential ks s.performed)
    (admits : s.Admits a) (step : s.step serve errno a = some s') :
    Confidential ks s'.performed := by
  rw [Session.step] at step
  split at step
  · obtain rfl := Option.some.inj step
    generalize hout : (a.tree (errno s.world)).run (logged serve) (s.world, []) = out at *
    obtain ⟨isSealed, once, fresh⟩ := sealed_of_admits honest (errno s.world) s a admits
      (p := ⟨a, out.2.2⟩) rfl (by rw [hout])
    constructor
    · intro p mem
      rcases List.mem_append.mp mem with mem | mem
      · exact confidential.ciphertext p mem
      · obtain rfl := List.mem_singleton.mp mem
        exact isSealed
    · rw [List.flatMap_append, List.flatMap_singleton]
      exact confidential.once.append once fresh.symm
  · nomatch step

/-- As long as every write finds its key and vector unused and nothing is written through the
    positional path, only ciphertext leaves the enclave and no keystream byte is used twice. -/
theorem run_confidential (honest : HonestCipher ks serve) (errno : σ → Nat) (world : σ)
    (accesses : List Access) (s : Session σ)
    (run : accesses.foldlM (Session.step serve errno) (Session.start world) = some s)
    (admitted : ∀ before a, before ++ [a] <+: accesses → ∀ t,
      before.foldlM (Session.step serve errno) (Session.start world) = some t → t.Admits a) :
    Confidential ks s.performed :=
  have start : Confidential ks (Session.start world).performed :=
    ⟨fun _ mem => absurd mem List.not_mem_nil, List.nodup_nil⟩
  foldlM_invariant (confidential_step honest errno) accesses _ s start admitted run

theorem honest_serveFiles (ks : Keystream) (heap : FileState → Nat → List Byte) :
    HonestCipher ks (serveFiles ks heap) where
  initialises _ := rfl
  keys _ _ _ := rfl
  encrypts _ _ _ _ := rfl

/-- What a run does behind the sample host. -/
def sampleSession (accesses : List Access) : Option (Session FileState) :=
  accesses.foldlM (Session.step (serveFiles sampleStream zeroHeap) fun _ => 0)
    (Session.start (sampleState []))

theorem run_confidential_once : ∃ s,
    sampleSession [.write sampleDesc [97, 98], .seek sampleDesc 0 0] = some s ∧
      Confidential sampleStream s.performed := by
  obtain ⟨s, ran⟩ := Option.isSome_iff_exists.mp (by decide +kernel :
    (sampleSession [.write sampleDesc [97, 98], .seek sampleDesc 0 0]).isSome = true)
  refine ⟨s, ran, run_confidential (honest_serveFiles sampleStream zeroHeap) (fun _ => 0)
    (sampleState []) [.write sampleDesc [97, 98], .seek sampleDesc 0 0] s ran ?_⟩
  rintro (_ | ⟨b, _ | ⟨c, before⟩⟩) a ⟨rest, eq⟩ t run
  · obtain rfl := Option.some.inj run
    obtain rfl := (List.cons.inj eq).1
    exact .inr (.inr fun pos => List.not_mem_nil)
  · obtain rfl := (List.cons.inj (List.cons.inj eq).2).1
    trivial
  · simp at eq

/-- One byte through the positional path, and two bytes in two calls. -/
theorem not_confidential :
    (∃ s, sampleSession [.pwrite sampleDesc [97] 0] = some s ∧
      ¬ Confidential sampleStream s.performed) ∧
    (∃ s, sampleSession [.write sampleDesc [97], .write sampleDesc [98]] = some s ∧
      ¬ Confidential sampleStream s.performed) := by
  constructor
  · have calls : (sampleSession [.pwrite sampleDesc [97] 0]).map
        (fun s => s.performed.map fun p => p.log.map Prod.fst) =
          some [[.host (.pwrite64 5 [97] 0)]] := by decide +kernel
    obtain ⟨s, ran, calls⟩ := Option.map_eq_some_iff.mp calls
    obtain ⟨p, performed, log⟩ := List.map_eq_singleton_iff.mp calls
    obtain ⟨e, he, call⟩ := List.map_eq_singleton_iff.mp log
    refine ⟨s, ran, fun confidential => ?_⟩
    obtain ⟨⟨reply, mem⟩, -⟩ := confidential.ciphertext p (by simp [performed]) e (by simp [he])
      (by rw [call]; decide)
    rw [he, List.mem_singleton] at mem
    exact Call.noConfusion ((congrArg Prod.fst mem).trans call)
  · have uses : (sampleSession [.write sampleDesc [97], .write sampleDesc [98]]).map Session.uses =
        some [(sampleDesc.key, sampleDesc.iv, 0), (sampleDesc.key, sampleDesc.iv, 0)] := by
      decide +kernel
    obtain ⟨s, ran, uses⟩ := Option.map_eq_some_iff.mp uses
    refine ⟨s, ran, fun confidential => ?_⟩
    have once : s.uses.Nodup := confidential.once
    rw [uses] at once
    exact absurd once (by decide)

end SandboxTEE.HostDesc
