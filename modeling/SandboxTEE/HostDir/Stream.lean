import SandboxTEE.HostDir.Copy

/-! # The loop over two buffers

One call of `NaClStreamDirents` takes entries from the front of what is buffered and of what the
host has left, and the user's buffer holds exactly those (`run_naClStreamDirents`).
-/

namespace SandboxTEE.HostDir

open SandboxTEE.Lib
open SandboxTEE.HostDesc (naClXlateErrno negXlate)

/-! ## Batches -/

theorem fitting_append (space count : Nat) (es : List DirEntry) :
    fitting space count es ++ es.drop (fitting space count es).length = es := by
  induction space, count, es using fitting.induct with
  | case1 => rfl
  | case2 => rfl
  | case3 space count e es fits ih =>
    rw [fitting, if_pos fits]
    exact congrArg (e :: ·) ih
  | case4 space count e es full =>
    rw [fitting, if_neg full]
    rfl

theorem length_fitting (space count : Nat) (es : List DirEntry) :
    ((fitting space count es).flatMap DirEntry.bytes).length ≤ space := by
  induction space, count, es using fitting.induct with
  | case1 => exact Nat.zero_le _
  | case2 => exact Nat.zero_le _
  | case3 space count e es fits ih =>
    rw [fitting, if_pos fits, List.flatMap_cons, List.length_append, DirEntry.length_bytes]
    omega
  | case4 space count e es full =>
    rw [fitting, if_neg full]
    exact Nat.zero_le _

theorem flatMap_bytes_eq_nil {batch : List DirEntry} (empty : batch.flatMap DirEntry.bytes = []) :
    batch = [] := by
  cases batch with
  | nil => rfl
  | cons e batch =>
    have length := congrArg List.length (List.append_eq_nil_iff.mp empty).1
    rw [DirEntry.length_bytes] at length
    exact absurd length (Nat.ne_of_gt e.reclen_pos)

variable {h : DirHost}

/-- A batch is empty at the end of the directory only. -/
theorem DirHost.batch_eq_nil (empty : fitting direntBufBytes h.count h.rest = []) :
    h.rest = [] := by
  cases rest : h.rest with
  | nil => rfl
  | cons e es =>
    have positive : ∃ count, h.count = count + 1 := by
      rw [DirHost.count]
      split
      · exact ⟨_, rfl⟩
      · exact ⟨es.length, by rw [rest, List.length_cons]⟩
    obtain ⟨count, hcount⟩ := positive
    have fits : e.reclen ≤ direntBufBytes := Nat.le_of_lt e.reclen_lt
    rw [rest, hcount, fitting, if_pos fits] at empty
    cases empty

/-- What a call of `getdents` does that does not fail. -/
structure Delivers (h h' : DirHost) (batch : List DirEntry) : Prop where
  entries : h'.entries = h.entries
  rest : h.rest = batch ++ h'.rest
  bounded : (batch.flatMap DirEntry.bytes).length ≤ direntBufBytes
  atEnd : batch = [] → h.rest = []

theorem serve_getdents (running : ¬ h.Fails) (fd : Int) :
    ∃ batch h', Delivers h h' batch ∧ h.serve (.getdents fd direntBufBytes) =
      (⟨(batch.flatMap DirEntry.bytes).length, batch.flatMap DirEntry.bytes⟩, h') := by
  refine ⟨fitting direntBufBytes h.count h.rest, _, ?_, if_neg running⟩
  exact ⟨rfl, (fitting_append ..).symm, length_fitting .., DirHost.batch_eq_nil⟩

/-! ## One call -/

/-- The call has taken the entries `taken`, and `left` are in the buffer behind them. -/
structure Streamed (h : DirHost) (es : List DirEntry) (mem : Memory) (buf len xferred : Nat)
    (out : Int × NaClHostDir × Memory) (h' : DirHost) (taken left : List DirEntry) : Prop where
  buffered : Buffered out.2.1 left
  entries : h'.entries = h.entries
  split : es ++ h.rest = taken ++ (left ++ h'.rest)
  holds : userLayout.HoldsAll out.2.2 buf taken
  inside : userLayout.sizes taken ≤ len
  front : ∀ p < buf, out.2.2 p = mem p
  total : 0 < xferred + userLayout.sizes taken → out.1 = xferred + userLayout.sizes taken
  none : xferred + userLayout.sizes taken = 0 → -131 ≤ out.1 ∧ out.1 ≤ 0
  /-- When the next record has room and the host does not fail, only the end of the directory stops
      the call from taking it. -/
  advances : (es = [] → ¬ h.Fails) → (∀ e ∈ (es ++ h.rest).head?, e.size ≤ len) → taken = [] →
    es ++ h.rest = [] ∧ out.1 = xferred

section

variable {d : NaClHostDir} {h h' : DirHost} {es batch taken left : List DirEntry} {e : DirEntry}
  {mem mem' : Memory} {buf len xferred : Nat} {retval : Int} {out : Int × NaClHostDir × Memory}

theorem Streamed.stop (buffered : Buffered d es) (entries : h'.entries = h.entries)
    (rest : h'.rest = h.rest) (total : 0 < xferred → retval = xferred)
    (none : xferred = 0 → -131 ≤ retval ∧ retval ≤ 0)
    (stuck : (es = [] → ¬ h.Fails) → (∀ e ∈ (es ++ h.rest).head?, e.size ≤ len) →
      es ++ h.rest = [] ∧ retval = xferred) :
    Streamed h es mem buf len xferred (retval, d, mem) h' [] es where
  buffered := buffered
  entries := entries
  split := by rw [rest]; rfl
  holds := trivial
  inside := Nat.zero_le _
  front _ _ := rfl
  total := total
  none := none
  advances running room _ := stuck running room

theorem Streamed.refill (delivers : Delivers h h' batch) (some : batch ≠ []) {h'' : DirHost}
    (rest : Streamed h' batch mem buf len xferred out h'' taken left) :
    Streamed h [] mem buf len xferred out h'' taken left where
  buffered := rest.buffered
  entries := rest.entries.trans delivers.entries
  split := delivers.rest.trans rest.split
  holds := rest.holds
  inside := rest.inside
  front := rest.front
  total := rest.total
  none := rest.none
  advances _ room stuck := by
    rw [List.nil_append, delivers.rest] at room ⊢
    exact rest.advances (fun empty => absurd empty some) room stuck

theorem Streamed.copy (room : e.size ≤ len) (holds : userLayout.Holds mem' buf e)
    (front : ∀ p < buf, mem' p = mem p)
    (rest : Streamed h es mem' (buf + e.size) (len - e.size) (xferred + e.size) out h' taken left) :
    Streamed h (e :: es) mem buf len xferred out h' (e :: taken) left where
  buffered := rest.buffered
  entries := rest.entries
  split := congrArg (e :: ·) rest.split
  holds := by
    refine ⟨userLayout.holds_congr (fun i inside => ?_) holds, rest.holds⟩
    exact (rest.front (buf + i) (Nat.add_lt_add_left inside buf)).symm
  inside := by
    have := rest.inside
    rw [RecordLayout.sizes_cons]
    change e.size + _ ≤ len
    omega
  front p below := (rest.front p (Nat.lt_add_right e.size below)).trans (front p below)
  total _ := by
    have := e.size_pos
    rw [RecordLayout.sizes_cons, ← Nat.cast_add, ← Nat.add_assoc]
    exact (rest.total (by omega)).trans (Nat.cast_add ..).symm
  none empty := by
    have := e.size_pos
    rw [RecordLayout.sizes_cons] at empty
    change xferred + (e.size + _) = 0 at empty
    omega
  advances _ _ stuck := nomatch stuck

/-! ## One pass

The loop ends, or goes on with one unit of fuel less. -/

/-- The loop comes to its end, and no check fails. -/
def Streams (errno fuel : Nat) (d : NaClHostDir) (h : DirHost) (es : List DirEntry) (mem : Memory)
    (buf len xferred : Nat) : Prop :=
  ∃ out h' taken left,
    (naClStreamDirents errno fuel d mem buf len xferred).run DirHost.serve h = (some out, h') ∧
    Streamed h es mem buf len xferred out h' taken left

variable {errno fuel : Nat}

theorem negXlate_range (errno : Nat) : -131 ≤ negXlate errno ∧ negXlate errno ≤ 0 := by
  rw [negXlate, naClXlateErrno]
  split
  · decide
  · omega

theorem Streams.full (buffered : Buffered d es) :
    Streams errno (fuel + 1) d h es mem buf 0 xferred := by
  refine ⟨_, _, _, _, congrArg (CallTree.run DirHost.serve · h) (if_pos rfl),
    Streamed.stop buffered rfl rfl (fun _ => rfl) (fun zero => ?_) fun _ room => ?_⟩
  · rw [zero]
    decide
  · refine ⟨List.head?_eq_none_iff.mp (Option.eq_none_iff_forall_ne_some.mpr ?_), rfl⟩
    intro e first
    exact absurd (room e first) (Nat.not_le_of_lt e.size_pos)

section empty

variable (space : len ≠ 0) (aligned : buf % 8 = 0) (buffered : Buffered d [])
include space aligned buffered

/-- With an empty buffer the pass is about the reply of the host. -/
theorem naClStreamDirents_empty :
    naClStreamDirents errno (fuel + 1) d mem buf len xferred =
      (CallTree.call (.getdents d.fd direntBufBytes) fun reply : DirReply =>
        if reply.retval = -1 then pure (if 0 < xferred then xferred else negXlate errno, d, mem)
        else if reply.retval = 0 then pure (xferred, d, mem)
        else
          naClStreamDirents errno fuel
            { d with
              curByte := 0
              nbytes := reply.retval.toNat
              direntBuf := store d.direntBuf 0 reply.data } mem buf len xferred :
        DirTree (Int × NaClHostDir × Memory)) := by
  rw [naClStreamDirents, if_neg space, naClCopyDirent_none aligned buffered,
    CallTree.pure_bind_eq]
  dsimp only
  rw [if_pos rfl, check_bind buffered.curByte_eq, CallTree.perform_bind]

theorem Streams.fails (fails : h.Fails) : Streams errno (fuel + 1) d h [] mem buf len xferred := by
  have reply : h.serve (.getdents d.fd direntBufBytes) =
      (⟨-1, []⟩, { h with script := h.script.tail }) := if_pos fails
  rw [Streams, naClStreamDirents_empty space aligned buffered, CallTree.run_call, reply, if_pos rfl]
  refine ⟨_, _, _, _, rfl, Streamed.stop buffered rfl rfl (fun pos => if_pos pos) (fun zero => ?_) ?_⟩
  · rw [if_neg (by omega)]
    exact negXlate_range errno
  · exact fun running => absurd fails (running rfl)

theorem Streams.atEnd (delivers : Delivers h h' [])
    (reply : h.serve (.getdents d.fd direntBufBytes) = (⟨0, []⟩, h')) :
    Streams errno (fuel + 1) d h [] mem buf len xferred := by
  rw [Streams, naClStreamDirents_empty space aligned buffered, CallTree.run_call, reply]
  refine ⟨_, _, _, _, rfl, Streamed.stop buffered delivers.entries delivers.rest.symm (fun _ => rfl)
    (fun zero => ?_) fun _ _ => ⟨delivers.atEnd rfl, rfl⟩⟩
  rw [zero]
  decide

theorem Streams.refill (delivers : Delivers h h' batch) (some : batch ≠ [])
    (reply : h.serve (.getdents d.fd direntBufBytes) =
      (⟨(batch.flatMap DirEntry.bytes).length, batch.flatMap DirEntry.bytes⟩, h'))
    (rest : Streams errno fuel (d.fill batch) h' batch mem buf len xferred) :
    Streams errno (fuel + 1) d h [] mem buf len xferred := by
  have bytes : (batch.flatMap DirEntry.bytes).length ≠ 0 := fun zero =>
    some (flatMap_bytes_eq_nil (List.length_eq_zero_iff.mp zero))
  obtain ⟨out, h'', taken, left, run, streamed⟩ := rest
  rw [Streams, naClStreamDirents_empty space aligned buffered, CallTree.run_call, reply]
  dsimp only
  rw [if_neg (by omega), if_neg (by omega), Int.toNat_natCast]
  exact ⟨out, h'', taken, left, run, streamed.refill delivers some⟩

end empty

section nonempty

variable (aligned : buf % 8 = 0) (buffered : Buffered d (e :: es))
include aligned buffered

theorem Streams.small (space : len ≠ 0) (small : len < e.size) :
    Streams errno (fuel + 1) d h (e :: es) mem buf len xferred := by
  rw [Streams, naClStreamDirents, if_neg space, naClCopyDirent_read aligned buffered, if_pos small,
    CallTree.pure_bind_eq]
  dsimp only
  rw [if_neg (by decide), if_pos (by decide)]
  refine ⟨_, _, _, _, rfl, Streamed.stop buffered rfl rfl (fun pos => if_pos pos) (fun zero => ?_)
    fun _ room => ?_⟩
  · rw [if_neg (by omega)]
    decide
  · exact absurd (room e rfl) (Nat.not_le_of_lt small)

theorem Streams.copy (room : e.size ≤ len) (short : e.name.length < naClAbiMaxnamlen)
    (rest : Streams errno fuel { d with curByte := d.curByte + e.reclen } h es
      (writeDirent d.direntBuf d.curByte e.name.length mem buf) (buf + e.size) (len - e.size)
      (xferred + e.size)) :
    Streams errno (fuel + 1) d h (e :: es) mem buf len xferred := by
  have positive := e.size_pos
  obtain ⟨out, h', taken, left, run, streamed⟩ := rest
  rw [Streams, naClStreamDirents, if_neg (by omega), naClCopyDirent_read aligned buffered,
    if_neg (by omega), CallTree.pure_bind_eq]
  dsimp only
  rw [if_neg (by omega), if_neg (by omega), check_bind (by omega), Int.toNat_natCast]
  exact ⟨out, h', _, left, run, streamed.copy room (holds_writeDirent buffered short)
    fun p below => writeDirent_of_outside (Or.inl below)⟩

end nonempty

end

/-! ## All passes -/

/-- The entries at the front that have room together have names that are copied. -/
def ShortFor (len : Nat) (es : List DirEntry) : Prop :=
  ∀ front, front <+: es → userLayout.sizes front ≤ len → ∀ e ∈ front, e.name.length < naClAbiMaxnamlen

variable {es : List DirEntry} {len : Nat}

theorem ShortFor.head {e : DirEntry} (short : ShortFor len (e :: es)) (room : e.size ≤ len) :
    e.name.length < naClAbiMaxnamlen :=
  short [e] (List.prefix_append [e] es) room e List.mem_cons_self

theorem ShortFor.tail {e : DirEntry} (short : ShortFor len (e :: es)) (room : e.size ≤ len) :
    ShortFor (len - e.size) es := by
  intro front isFront fits e' member
  refine short (e :: front) ((List.prefix_cons_inj e).mpr isFront) ?_ e' (List.mem_cons_of_mem e member)
  rw [RecordLayout.sizes_cons]
  change e.size + _ ≤ len
  omega

/-- By induction on the fuel, of which a pass that copies takes one unit for at least one byte. -/
theorem streams {errno fuel : Nat} {d : NaClHostDir} {mem : Memory} {buf xferred : Nat}
    (aligned : buf % 8 = 0) (buffered : Buffered d es) (short : ShortFor len (es ++ h.rest))
    (enough : 2 * len + (if es = [] then 2 else 1) ≤ fuel) :
    Streams errno fuel d h es mem buf len xferred := by
  induction fuel generalizing d h es mem buf len xferred with
  | zero =>
    exfalso
    split at enough <;> omega
  | succ fuel ih =>
    by_cases space : len = 0
    · subst space
      exact Streams.full buffered
    cases es with
    | nil =>
      rw [if_pos rfl] at enough
      by_cases fails : h.Fails
      · exact Streams.fails space aligned buffered fails
      obtain ⟨batch, h', delivers, reply⟩ := serve_getdents fails d.fd
      by_cases empty : batch = []
      · subst empty
        exact Streams.atEnd space aligned buffered delivers reply
      · refine Streams.refill space aligned buffered delivers empty reply ?_
        refine ih aligned (buffered_fill delivers.bounded) ?_ (by rw [if_neg empty]; omega)
        rwa [← delivers.rest]
    | cons e es =>
      rw [if_neg (List.cons_ne_nil e es)] at enough
      by_cases small : len < e.size
      · exact Streams.small aligned buffered space small
      · have room := Nat.le_of_not_lt small
        have positive := e.size_pos
        refine Streams.copy aligned buffered room (short.head room) ?_
        refine ih ?_ buffered.advance (short.tail room) ?_
        · rw [Nat.add_mod, aligned, e.size_aligned]
        · split <;> omega

end SandboxTEE.HostDir
