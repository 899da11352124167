import SandboxTEE.Imc.Internalize

/-! # When a malformed message is noticed

A descriptor that cannot be internalized ends the loop over the records as the end tag does, and
the call succeeds with the descriptors before it.  So the call answers for a message exactly when
there is no such record in it (`naClImcRecvTypedMessage_answers_iff`).
-/

namespace SandboxTEE.Imc

open SandboxTEE.Lib

/-! ## One record -/

/-- The end of the records: the end of the bytes or the end tag. -/
def Ended (bytes : Bytes) : Prop :=
  bytes = [] ∨ ∃ more, bytes = BitVec.ofNat 8 naclDescTypeEndTag :: more

/-- A tag that there is no kind of descriptor for. -/
def Unknown (bytes : Bytes) : Prop :=
  ∃ tag more, bytes = tag :: more ∧ naclDescTypeMax ≤ tag.toNat ∧ tag.toNat ≠ naclDescTypeEndTag

variable {buf bytes : Bytes} {xfer : XferState} {hs : List Handle}

variable {tag : BitVec 8}

theorem stuck_of_tag {more : Bytes} (large : 17 < tag.toNat) : records.Stuck (tag :: more) hs := by
  intro d rest left front _
  have := congrArg BitVec.toNat (List.cons.inj front).1
  rw [d.toNat_tag] at this
  have := d.tag_le
  omega

theorem Ended.stuck (ended : Ended bytes) : records.Stuck bytes hs := by
  obtain rfl | ⟨more, rfl⟩ := ended
  · intro d rest left front
    cases front
  · exact stuck_of_tag (by decide)

theorem Unknown.stuck (unknown : Unknown bytes) : records.Stuck bytes hs := by
  obtain ⟨tag, more, rfl, large, -⟩ := unknown
  exact stuck_of_tag (by rw [naclDescTypeMax] at large; omega)

theorem Absent.stuck (absent : Absent tag.toNat bytes hs) : records.Stuck (tag :: bytes) hs := by
  intro d rest left front
  obtain ⟨same, body⟩ := List.cons.inj front
  exact absent d rest left (by rw [same, d.toNat_tag]) body

/-- Neither a record, nor the end of the records, nor an unknown tag. -/
structure Malformed (bytes : Bytes) (hs : List Handle) : Prop where
  stuck : records.Stuck bytes hs
  notEnded : ¬ Ended bytes
  known : ¬ Unknown bytes

/-- What is made of what is in front. -/
inductive ReadsFront (buf : Bytes) (bytes : Bytes) (hs : List Handle) :
    Except Fault Internalized → Prop where
  | ended (more : Bytes) (xfer : XferState) (ended : Ended bytes) (ahead : Ahead buf xfer more hs) :
      ReadsFront buf bytes hs (.ok ⟨0, none, xfer⟩)
  | unknown (more : Bytes) (xfer : XferState) (unknown : Unknown bytes)
      (ahead : Ahead buf xfer more hs) : ReadsFront buf bytes hs (.ok ⟨-eio, none, xfer⟩)
  | record (d : NaClDesc) (rest : Bytes) (left : List Handle) (xfer : XferState)
      (front : bytes = d.wire ++ rest) (beside : hs = d.handles ++ left)
      (ahead : Ahead buf xfer rest left) : ReadsFront buf bytes hs (.ok ⟨1, some d, xfer⟩)
  | silent (xfer : XferState) (malformed : Malformed bytes hs) :
      ReadsFront buf bytes hs (.ok ⟨0, none, xfer⟩)
  | unstored (xfer : XferState) (malformed : Malformed bytes hs) :
      ReadsFront buf bytes hs (.ok ⟨1, none, xfer⟩)
  | fatal (f : Fault) (malformed : Malformed bytes hs) : ReadsFront buf bytes hs (.error f)

theorem absent_of_no_kind {tag : Nat} (none : ∀ d : NaClDesc, d.tag ≠ tag) :
    Absent tag bytes hs := fun d _ _ kind => absurd kind (none d)

/-- Every internalizer of the table does what the one of its kind does. -/
theorem naClDescInternalize_spec (ahead : Ahead buf xfer bytes hs) {tag : Nat}
    {internalize : Bytes → XferState → Except Fault Internalized}
    (entry : naClDescInternalize tag = some internalize) :
    Internalizes buf tag bytes hs (internalize buf xfer) := by
  rw [naClDescInternalize.eq_def] at entry
  split at entry
  · cases entry
    exact .made .invalid bytes hs xfer rfl rfl rfl ahead
  · cases entry
    exact naClDescIoInternalize_spec ahead
  · cases entry
    exact naClDescConnCapFdInternalize_spec ahead
  · cases entry
    exact naClDescImcShmInternalize_spec ahead
  · cases entry
    exact naClDescSyncSocketInternalize_spec ahead
  · cases entry
    exact naClDescXferableDataDescInternalize_spec ahead
  · cases entry
    exact .made .null bytes hs xfer rfl rfl rfl ahead
  · split at entry
    · cases entry
      refine .unmade _ _ (absent_of_no_kind fun d => ?_)
      cases d <;> simp_all [NaClDesc.tag] <;> omega
    · cases entry

theorem naClDescInternalizeFromXferBuffer_spec (ahead : Ahead buf xfer (tag :: bytes) hs) :
    ReadsFront buf (tag :: bytes) hs (naClDescInternalizeFromXferBuffer buf xfer) := by
  obtain ⟨typeTag, read, tagBytes⟩ := ahead.readWord (k := 0) (n := 1) (by simp)
  have same : typeTag.toNat = tag.toNat := by
    have := congrArg leValue tagBytes
    rw [Word.bytes, leValue_leBytes, Nat.mod_eq_of_lt (show typeTag.toNat < 256 ^ 1 from
      typeTag.isLt)] at this
    simpa [leValue] using this
  have behind : Ahead buf { xfer with nextByte := xfer.nextByte + 1 } bytes hs :=
    ahead.skip (n := 1) (by simp)
  rw [Nat.add_zero] at read
  rw [naClDescInternalizeFromXferBuffer, read, ok_bind]
  simp only [same]
  by_cases isEnd : tag.toNat = naclDescTypeEndTag
  · rw [if_pos isEnd]
    exact .ended bytes _ (.inr ⟨bytes, by rw [← isEnd, BitVec.ofNat_toNat, BitVec.setWidth_eq]⟩)
      behind
  · rw [if_neg isEnd]
    by_cases large : tag.toNat ≥ naclDescTypeMax
    · rw [if_pos large]
      exact .unknown bytes _ ⟨tag, bytes, rfl, large, isEnd⟩ behind
    · rw [if_neg large]
      have malformed (stuck : records.Stuck (tag :: bytes) hs) : Malformed (tag :: bytes) hs := by
        refine ⟨stuck, ?_, ?_⟩
        · rintro (none | ⟨more, isTag⟩)
          · cases none
          refine isEnd ?_
          rw [(List.cons.inj isTag).1]
          rfl
        · rintro ⟨tag', more, isTag, large', -⟩
          exact large ((List.cons.inj isTag).1 ▸ large')
      cases entry : naClDescInternalize tag.toNat with
      | none =>
        refine .fatal _ (malformed (stuck_of_tag ?_))
        rw [naClDescInternalize.eq_def] at entry
        split at entry <;> simp_all
        omega
      | some internalize =>
        simp only
        generalize made : internalize buf _ = result
        have spec := naClDescInternalize_spec behind entry
        rw [made] at spec
        cases spec with
        | made d rest left xfer' kind front beside ahead' =>
          refine .record d rest left xfer' ?_ beside ahead'
          rw [NaClDesc.wire, kind, BitVec.ofNat_toNat, BitVec.setWidth_eq, front]
          rfl
        | unmade rv xfer' absent =>
          rw [ok_bind]
          by_cases zero : rv = 0
          · simp only [if_pos zero]
            exact .unstored xfer' (malformed absent.stuck)
          · simp only [if_neg zero]
            exact .silent xfer' (malformed absent.stuck)

/-! ## The loop over the records -/

/-- How the loop leaves the records in front, after the descriptors `pre`. -/
inductive Collects (buf : Bytes) (pre : List NaClDesc) (bytes : Bytes) (hs : List Handle) :
    Except Fault Collected → Prop where
  | ended (ds : List NaClDesc) (rest after : Bytes) (left : List Handle) (xfer : XferState)
      (front : records.Front bytes hs ds rest left) (ended : Ended rest)
      (room : pre.length + ds.length ≤ naclAbiImcDescMax) (ahead : Ahead buf xfer after left) :
      Collects buf pre bytes hs (.ok ⟨false, pre ++ ds, xfer⟩)
  | unknown (ds : List NaClDesc) (rest after : Bytes) (left : List Handle) (xfer : XferState)
      (front : records.Front bytes hs ds rest left) (unknown : Unknown rest)
      (room : pre.length + ds.length < naclAbiImcDescMax) (ahead : Ahead buf xfer after left) :
      Collects buf pre bytes hs (.ok ⟨true, pre ++ ds, xfer⟩)
  | silent (ds : List NaClDesc) (rest : Bytes) (left : List Handle) (newDesc : List NaClDesc)
      (xfer : XferState) (front : records.Front bytes hs ds rest left)
      (malformed : Malformed rest left) : Collects buf pre bytes hs (.ok ⟨false, newDesc, xfer⟩)
  | fault (ds : List NaClDesc) (rest : Bytes) (left : List Handle) (f : Fault)
      (front : records.Front bytes hs ds rest left)
      (why : Malformed rest left ∨ naclAbiImcDescMax ≤ pre.length + ds.length ∧ ¬ Ended rest) :
      Collects buf pre bytes hs (.error f)

theorem Collects.cons {pre : List NaClDesc} {d : NaClDesc} {result : Except Fault Collected}
    (collects : Collects buf (pre ++ [d]) bytes hs result) :
    Collects buf pre (d.wire ++ bytes) (d.handles ++ hs) result := by
  cases collects with
  | ended ds rest after left xfer front ended room ahead =>
    rw [List.append_assoc]
    rw [List.length_append, List.length_singleton, Nat.add_assoc, Nat.add_comm 1] at room
    exact .ended (d :: ds) rest after left xfer front.cons ended room ahead
  | unknown ds rest after left xfer front unknown room ahead =>
    rw [List.append_assoc]
    rw [List.length_append, List.length_singleton, Nat.add_assoc, Nat.add_comm 1] at room
    exact .unknown (d :: ds) rest after left xfer front.cons unknown room ahead
  | silent ds rest left newDesc xfer front malformed =>
    exact .silent (d :: ds) rest left newDesc xfer front.cons malformed
  | fault ds rest left f front why =>
    rw [List.length_append, List.length_singleton, Nat.add_assoc, Nat.add_comm 1] at why
    exact .fault (d :: ds) rest left f front.cons why

theorem collect_spec {fuel : Nat} {pre : List NaClDesc} (ahead : Ahead buf xfer bytes hs)
    (enough : bytes.length ≤ fuel) (room : pre.length ≤ naclAbiImcDescMax) :
    Collects buf pre bytes hs (collect buf fuel pre xfer) := by
  induction fuel generalizing pre bytes hs xfer with
  | zero =>
    cases List.length_eq_zero_iff.mp (Nat.le_zero.mp enough)
    have length := ahead.length
    rw [List.length_nil] at length
    rw [collect, if_neg (by omega)]
    have : Collects buf pre [] hs (.ok ⟨false, pre ++ [], xfer⟩) :=
      .ended [] [] [] hs xfer .nil (.inl rfl) room ahead
    rwa [List.append_nil] at this
  | succ fuel ih =>
    have length := ahead.length
    cases bytes with
    | nil =>
      rw [List.length_nil] at length
      rw [collect, if_neg (by omega)]
      have : Collects buf pre [] hs (.ok ⟨false, pre ++ [], xfer⟩) :=
      .ended [] [] [] hs xfer .nil (.inl rfl) room ahead
      rwa [List.append_nil] at this
    | cons tag bytes =>
      rw [List.length_cons] at length
      rw [collect, if_pos (by omega)]
      have spec := naClDescInternalizeFromXferBuffer_spec ahead
      generalize naClDescInternalizeFromXferBuffer buf xfer = result at spec
      cases spec with
      | ended more xfer' ended ahead' =>
        have : Collects buf pre (tag :: bytes) hs (.ok ⟨false, pre ++ [], xfer'⟩) :=
          .ended [] _ more hs xfer' .nil ended room ahead'
        rwa [List.append_nil] at this
      | unknown more xfer' unknown ahead' =>
        rw [ok_bind, if_neg (by decide : ¬ -eio = 0)]
        by_cases full : pre.length ≥ naclAbiImcDescMax
        · rw [if_pos full]
          refine .fault [] _ hs _ .nil (.inr ⟨full, ?_⟩)
          rintro (none | ⟨more, isEnd⟩)
          · cases none
          · obtain ⟨tag', more', isTag, -, notEnd⟩ := unknown
            rw [isTag] at isEnd
            exact notEnd ((congrArg BitVec.toNat (List.cons.inj isEnd).1).trans rfl)
        · rw [if_neg full, if_pos (by decide : -eio ≠ 1)]
          have : Collects buf pre (tag :: bytes) hs (.ok ⟨true, pre ++ [], xfer'⟩) :=
            .unknown [] _ more hs xfer' .nil unknown (Nat.lt_of_not_le full) ahead'
          rwa [List.append_nil] at this
      | record d rest left xfer' front beside ahead' =>
        rw [ok_bind, if_neg (by decide : ¬ (1 : Int) = 0)]
        by_cases full : pre.length ≥ naclAbiImcDescMax
        · rw [if_pos full]
          exact .fault [] _ hs _ .nil (.inr ⟨full, fun ended => ended.stuck d rest left front beside⟩)
        · rw [if_neg full, if_neg (by decide : ¬ (1 : Int) ≠ 1), front, beside]
          refine (ih ahead' ?_ ?_).cons
          · have := congrArg List.length front
            rw [List.length_cons, List.length_append, NaClDesc.wire, List.length_cons] at this
            rw [List.length_cons] at enough
            omega
          · rw [List.length_append, List.length_singleton]
            omega
      | silent xfer' malformed => exact .silent [] _ hs pre xfer' .nil malformed
      | unstored xfer' malformed =>
        rw [ok_bind, if_neg (by decide : ¬ (1 : Int) = 0)]
        by_cases full : pre.length ≥ naclAbiImcDescMax
        · rw [if_pos full]
          exact .fault [] _ hs _ .nil (.inl malformed)
        · rw [if_neg full, if_neg (by decide : ¬ (1 : Int) ≠ 1)]
          exact .fault [] _ hs _ .nil (.inl malformed)
      | fatal f malformed => exact .fault [] _ hs f .nil (.inl malformed)

/-! ## Cleaning up -/

/-- The host closes what the descriptor owns, where the destructor insists on it. -/
def NaClDesc.Closes (closes : Handle → Bool) : NaClDesc → Prop
  | .io _ h _ => closes h = true
  | _ => True

variable {closed : List Handle} {closes : Handle → Bool}

variable {d : NaClDesc}

theorem naClDescUnref_of_closes (ok : d.Closes closes) :
    naClDescUnref closes closed d = .ok (closed ++ d.handles) := by
  cases d with
  | io base h flags => exact if_pos ok
  | _ => rfl

theorem naClDescUnref_of_not_closes (closed : List Handle) (bad : ¬ d.Closes closes) :
    ∃ f, naClDescUnref closes closed d = .error f := by
  cases d with
  | io base h flags => exact ⟨_, if_neg bad⟩
  | _ => exact absurd trivial bad

variable {ds : List NaClDesc}

theorem unrefAll_of_closes (ok : ∀ d ∈ ds, d.Closes closes) :
    ds.foldlM (naClDescUnref closes) closed = .ok (closed ++ ds.flatMap NaClDesc.handles) := by
  induction ds generalizing closed with
  | nil => rw [List.foldlM_nil, List.flatMap_nil, List.append_nil]; rfl
  | cons d ds ih =>
    rw [List.foldlM_cons, naClDescUnref_of_closes (ok d List.mem_cons_self), ok_bind,
      ih fun e mem => ok e (List.mem_cons_of_mem _ mem), List.flatMap_cons, List.append_assoc]

theorem closes_of_unrefAll {after : List Handle}
    (run : ds.foldlM (naClDescUnref closes) closed = .ok after) : ∀ d ∈ ds, d.Closes closes := by
  induction ds generalizing closed with
  | nil => exact fun d mem => absurd mem List.not_mem_nil
  | cons d ds ih =>
    rw [List.foldlM_cons] at run
    obtain ⟨closed', first, run⟩ := bind_eq_ok run
    intro e mem
    cases List.mem_cons.mp mem with
    | inl same =>
      by_contra bad
      obtain ⟨f, failed⟩ := naClDescUnref_of_not_closes closed (same ▸ bad)
      rw [failed] at first
      cases first
    | inr later => exact ih run e later

theorem cleanup_of_closes (ahead : Ahead buf xfer bytes hs) (ok : ∀ d ∈ ds, d.Closes closes) :
    cleanup closes ds xfer = .ok (ds.flatMap NaClDesc.handles ++ hs) := by
  rw [cleanup, ahead.closed, unrefAll_of_closes ok, ok_bind, ahead.kept]
  rfl

theorem closes_of_cleanup (run : cleanup closes ds xfer = .ok closed) :
    ∀ d ∈ ds, d.Closes closes := by
  rw [cleanup] at run
  obtain ⟨closed', unref, -⟩ := bind_eq_ok run
  exact closes_of_unrefAll unref

/-! ## A message -/

variable {avail : Nat}

theorem scatter_ok (iov : List IoVec) {userData : Nat} (inside : userData + avail ≤ buf.length) :
    ∃ copied, scatter buf iov userData avail = .ok copied := by
  induction iov generalizing userData avail with
  | nil => exact ⟨[], rfl⟩
  | cons v iov ih =>
    rw [scatter]
    by_cases some : 0 < avail
    · have fits : userData + min v.length.toNat avail ≤ buf.length := by omega
      have inside' : userData + min v.length.toNat avail + (avail - min v.length.toNat avail) ≤
          buf.length := by omega
      obtain ⟨rest, run⟩ := ih inside'
      simp only [if_pos some, readBytes, dif_pos fits, ok_bind, run]
      exact ⟨_, rfl⟩
    · exact ⟨[], if_neg some⟩

def Message.descriptorDataBytes (m : Message) : Nat := leValue ((m.bytes.drop 4).take 4)

def Message.descriptorData (m : Message) : Bytes :=
  (m.bytes.drop sizeofInternHdr).take m.descriptorDataBytes

/-- The header is that of the protocol, and what it announces has been received. -/
structure Message.Headed (m : Message) : Prop where
  whole : sizeofInternHdr ≤ m.bytes.length
  protocol : m.bytes.take 4 = naclHandleTransferProtocol.bytes
  received : m.descriptorDataBytes + sizeofInternHdr ≤ m.bytes.length

/-- The descriptor data can be read to its end: it is records up to the end, or up to a tag that
    is refused, no more of them than are allowed, and what is dropped of them can be closed. -/
def Message.WellFormed (closes : Handle → Bool) (ndescLength : Nat) (m : Message) : Prop :=
  ∃ ds rest left, records.Front m.descriptorData m.handles ds rest left ∧
    (Ended rest ∧ ds.length ≤ naclAbiImcDescMax ∧ (∀ d ∈ ds.drop ndescLength, d.Closes closes) ∨
      Unknown rest ∧ ds.length < naclAbiImcDescMax ∧ ∀ d ∈ ds, d.Closes closes)

/-- What is asked of a call that returns. -/
structure Answers (nitmhp : TypedMsgHdr) (r : Received) : Prop where
  /-- It returns a negative errno, or the descriptors of every record of the message. -/
  outcome : r.retval < 0 ∧ r.ndescv = [] ∨
    0 ≤ r.retval ∧ ∃ m ds rest left, r.taken = some m ∧
      records.Front m.descriptorData m.handles ds rest left ∧ Ended rest ∧
      r.ndescv = ds.take nitmhp.ndescLength
  /-- Each handle received is in one descriptor returned or has been closed once. -/
  accounted : (r.ndescv.flatMap NaClDesc.handles ++ r.closed).Perm
    (r.taken.elim [] Message.handles)

theorem leValue_bytes {n : Nat} (w : Word n) : leValue w.bytes = w.toNat := by
  have bound : w.toNat < 256 ^ n := by
    have := w.isLt
    rwa [Nat.pow_mul] at this
  rw [Word.bytes, leValue_leBytes, Nat.mod_eq_of_lt bound]

theorem readWord_ok (k pos : Nat) (inside : pos + k ≤ buf.length) :
    ∃ w, readWord k buf pos = .ok w ∧ w.bytes = (buf.drop pos).take k := by
  have length : ((buf.drop pos).take k).length = k := by
    rw [List.length_take, List.length_drop]
    omega
  refine ⟨Word.ofBytes k ((buf.drop pos).take k), ?_, Word.bytes_ofBytes length⟩
  rw [readWord, readBytes, dif_pos inside]
  rfl

theorem Message.kept (m : Message) : m.kernHandle.filterMap id = m.handles := by
  simp [Message.kernHandle, List.filterMap_append, List.filterMap_map]

/-- A message whose header is refused: all its handles are closed. -/
def refusal (nitmhp : TypedMsgHdr) (m : Message) : Received :=
  ⟨-eio, some m, [], [], nitmhp.ndescLength, nitmhp.flags, m.handles⟩

theorem refusal_answers (nitmhp : TypedMsgHdr) (m : Message) :
    Answers nitmhp (refusal nitmhp m) where
  outcome := .inl ⟨show -eio < 0 by decide, rfl⟩
  accounted := .refl _

theorem cleanup_refused (closes : Handle → Bool) (m : Message) :
    cleanup closes [] ⟨0, 0, 0, 0, m.kernHandle, []⟩ = .ok m.handles := by
  rw [cleanup, List.foldlM_nil, show (pure [] : Except Fault (List Handle)) = .ok [] from rfl,
    ok_bind, m.kept]
  rfl

variable {m : Message}

/-- The fields of the header of a message that has one. -/
theorem Message.read_header (whole : sizeofInternHdr ≤ m.bytes.length) :
    ∃ version length : Word 4, readWord 4 m.bytes 0 = .ok version ∧
      readWord 4 m.bytes 4 = .ok length ∧ version.bytes = m.bytes.take 4 ∧
      length.toNat = m.descriptorDataBytes := by
  rw [sizeofInternHdr] at whole
  have inside (pos : Nat) (fits : pos ≤ 4) : pos + 4 ≤ m.bytes.length := by omega
  obtain ⟨version, readVersion, versionBytes⟩ := readWord_ok 4 0 (inside 0 (by decide))
  obtain ⟨length, readLength, lengthBytes⟩ := readWord_ok 4 4 (inside 4 (by decide))
  refine ⟨version, length, readVersion, readLength, versionBytes, ?_⟩
  rw [← leValue_bytes, lengthBytes]
  rfl

variable {nitmhp : TypedMsgHdr}

variable {bytesWanted : Nat}

theorem decodeMessage_of_not_headed (not : ¬ m.Headed) :
    decodeMessage closes nitmhp bytesWanted m = .ok (refusal nitmhp m) := by
  rw [decodeMessage]
  simp only [cleanup_refused, ok_bind]
  by_cases whole : m.bytes.length < sizeofInternHdr
  · exact if_pos whole
  · obtain ⟨version, length, readVersion, readLength, versionBytes, lengthValue⟩ :=
      m.read_header (Nat.le_of_not_lt whole)
    simp only [if_neg whole, readVersion, readLength, ok_bind, lengthValue]
    by_cases protocol : naclHandleTransferProtocol ≠ version
    · exact if_pos protocol
    · rw [if_neg protocol]
      refine if_pos (Nat.lt_of_not_le fun received => not ⟨Nat.le_of_not_lt whole, ?_, received⟩)
      rw [Decidable.not_not.mp protocol, versionBytes]

/-- The transfer state the loop over the records starts in. -/
def Message.start (m : Message) : XferState :=
  ⟨sizeofInternHdr, sizeofInternHdr + m.descriptorDataBytes, 0, m.handles.length, m.kernHandle, []⟩

theorem Message.Headed.ahead (headed : m.Headed) :
    Ahead m.bytes m.start m.descriptorData m.handles where
  within := by
    have := headed.received
    show sizeofInternHdr + m.descriptorDataBytes ≤ m.bytes.length
    omega
  reached := Nat.le_add_right _ _
  bytes := by
    show (m.bytes.drop sizeofInternHdr).take (sizeofInternHdr + m.descriptorDataBytes -
      sizeofInternHdr) = m.descriptorData
    rw [Nat.add_sub_cancel_left]
    rfl
  kernHandle := ⟨_, rfl⟩
  handleEnd := (Nat.zero_add _).symm
  closed := rfl

/-- What is left of decoding a message with a header once its records have been read. -/
def finish (closes : Handle → Bool) (nitmhp : TypedMsgHdr) (m : Message) (avail : Nat)
    (copied : List (Nat × Bytes)) (c : Collected) : Except Fault Received := do
  if c.failed then
    let closed ← cleanup closes c.newDesc c.xfer
    pure ⟨-eio, some m, copied, [], nitmhp.ndescLength, nitmhp.flags, closed⟩
  else
    let closed ← cleanup closes (c.newDesc.drop nitmhp.ndescLength) c.xfer
    let truncated := nitmhp.ndescLength < c.newDesc.length
    pure ⟨avail, some m, copied, c.newDesc.take nitmhp.ndescLength,
      min nitmhp.ndescLength c.newDesc.length,
      if truncated then nitmhp.flags ||| naclAbiRecvmsgDescTruncated else nitmhp.flags,
      closed⟩

theorem decodeMessage_of_headed (closes : Handle → Bool) (nitmhp : TypedMsgHdr) (bytesWanted : Nat)
    (headed : m.Headed) : ∃ avail copied, decodeMessage closes nitmhp bytesWanted m =
      collect m.bytes m.descriptorDataBytes [] m.start >>= finish closes nitmhp m avail copied := by
  obtain ⟨version, length, readVersion, readLength, versionBytes, lengthValue⟩ :=
    m.read_header headed.whole
  have protocol : ¬ naclHandleTransferProtocol ≠ version := by
    rw [Ne, Decidable.not_not, ← Word.ofBytes_bytes naclHandleTransferProtocol, ← headed.protocol,
      ← versionBytes, Word.ofBytes_bytes]
  have received := headed.received
  have inside : sizeofInternHdr + m.descriptorDataBytes +
      min (m.bytes.length - m.descriptorDataBytes - sizeofInternHdr) bytesWanted ≤
        m.bytes.length := by omega
  obtain ⟨copied, scattered⟩ := scatter_ok nitmhp.iov inside
  refine ⟨min (m.bytes.length - m.descriptorDataBytes - sizeofInternHdr) bytesWanted, copied, ?_⟩
  rw [decodeMessage]
  simp only [if_neg (Nat.not_lt.mpr headed.whole), readVersion, readLength, ok_bind, lengthValue,
    if_neg protocol, if_neg (Nat.not_lt.mpr received), scattered]
  rfl

theorem Unknown.not_ended (unknown : Unknown bytes) : ¬ Ended bytes := by
  obtain ⟨tag, more, rfl, -, notEnd⟩ := unknown
  rintro (none | ⟨more', isEnd⟩)
  · cases none
  · exact notEnd ((congrArg BitVec.toNat (List.cons.inj isEnd).1).trans rfl)

variable {left : List Handle} {rest : Bytes}

variable {after : Bytes} {copied : List (Nat × Bytes)}

theorem finish_ended (front : records.Front m.descriptorData m.handles ds rest left)
    (ended : Ended rest) (ahead : Ahead buf xfer after left)
    (ok : ∀ d ∈ ds.drop nitmhp.ndescLength, d.Closes closes) :
    ∃ r, finish closes nitmhp m avail copied ⟨false, ds, xfer⟩ = .ok r ∧ Answers nitmhp r := by
  rw [finish, if_neg Bool.false_ne_true, cleanup_of_closes ahead ok, ok_bind]
  refine ⟨_, rfl, ?_, ?_⟩
  · exact .inr ⟨Int.natCast_nonneg avail, m, ds, rest, left, rfl, front, ended, rfl⟩
  · show ((ds.take nitmhp.ndescLength).flatMap NaClDesc.handles ++
      ((ds.drop nitmhp.ndescLength).flatMap NaClDesc.handles ++ left)).Perm m.handles
    rw [← List.append_assoc, ← List.flatMap_append, List.take_append_drop]
    exact .of_eq front.tokens.symm

theorem finish_unknown (avail : Nat) (front : records.Front m.descriptorData m.handles ds rest left)
    (ahead : Ahead buf xfer after left) (ok : ∀ d ∈ ds, d.Closes closes) :
    ∃ r, finish closes nitmhp m avail copied ⟨true, ds, xfer⟩ = .ok r ∧ Answers nitmhp r := by
  rw [finish, if_pos rfl, cleanup_of_closes ahead ok, ok_bind]
  exact ⟨_, rfl, .inl ⟨show -eio < 0 by decide, rfl⟩, .of_eq front.tokens.symm⟩

theorem decodeMessage_answers_iff (headed : m.Headed) :
    (∃ r, decodeMessage closes nitmhp bytesWanted m = .ok r ∧ Answers nitmhp r) ↔
      m.WellFormed closes nitmhp.ndescLength := by
  obtain ⟨avail, copied, run⟩ := decodeMessage_of_headed closes nitmhp bytesWanted headed
  have spec : Collects m.bytes [] m.descriptorData m.handles
      (collect m.bytes m.descriptorDataBytes [] m.start) :=
    collect_spec headed.ahead (by rw [Message.descriptorData, List.length_take]; omega)
      (Nat.zero_le _)
  rw [run]
  generalize collect m.bytes m.descriptorDataBytes [] m.start = result at spec
  constructor
  · rintro ⟨r, run, answers⟩
    cases spec with
    | ended ds rest after left xfer front ended room ahead =>
      rw [ok_bind, finish, if_neg Bool.false_ne_true] at run
      obtain ⟨closed, cleaned, -⟩ := bind_eq_ok run
      rw [List.length_nil, Nat.zero_add] at room
      exact ⟨ds, rest, left, front, .inl ⟨ended, room, closes_of_cleanup cleaned⟩⟩
    | unknown ds rest after left xfer front unknown room ahead =>
      rw [ok_bind, finish, if_pos rfl] at run
      obtain ⟨closed, cleaned, -⟩ := bind_eq_ok run
      rw [List.length_nil, Nat.zero_add] at room
      exact ⟨ds, rest, left, front, .inr ⟨unknown, room, closes_of_cleanup cleaned⟩⟩
    | silent ds rest left newDesc xfer front malformed =>
      rw [ok_bind, finish, if_neg Bool.false_ne_true] at run
      obtain ⟨closed, -, returned⟩ := bind_eq_ok run
      cases returned
      cases answers.outcome with
      | inl failed => exact absurd failed.1 (Int.not_lt.mpr (Int.natCast_nonneg avail))
      | inr success =>
        obtain ⟨-, m', ds', rest', left', taken, front', ended, -⟩ := success
        cases taken
        obtain ⟨-, rfl, -⟩ := front.unique front' malformed.stuck ended.stuck
        exact absurd ended malformed.notEnded
    | fault ds rest left f front why => cases run
  · rintro ⟨ds', rest', left', front', reads⟩
    have stuck' : records.Stuck rest' left' := by
      cases reads with
      | inl read => exact read.1.stuck
      | inr read => exact read.1.stuck
    cases spec with
    | ended ds rest after left xfer front ended room ahead =>
      obtain ⟨rfl, rfl, rfl⟩ := front.unique front' ended.stuck stuck'
      cases reads with
      | inl read => exact finish_ended front ended ahead read.2.2
      | inr read => exact absurd ended read.1.not_ended
    | unknown ds rest after left xfer front unknown room ahead =>
      obtain ⟨rfl, rfl, rfl⟩ := front.unique front' unknown.stuck stuck'
      cases reads with
      | inl read => exact absurd read.1 unknown.not_ended
      | inr read => exact finish_unknown avail front ahead read.2.2
    | silent ds rest left newDesc xfer front malformed =>
      obtain ⟨rfl, rfl, rfl⟩ := front.unique front' malformed.stuck stuck'
      cases reads with
      | inl read => exact absurd read.1 malformed.notEnded
      | inr read => exact absurd read.1 malformed.known
    | fault ds rest left f front why =>
      cases why with
      | inl malformed =>
        obtain ⟨rfl, rfl, rfl⟩ := front.unique front' malformed.stuck stuck'
        cases reads with
        | inl read => exact absurd read.1 malformed.notEnded
        | inr read => exact absurd read.1 malformed.known
      | inr full =>
        -- The loop stops with all places taken, so there are more records than places.
        obtain ⟨more, rfl, further⟩ := front.extends stuck' front'
        rw [List.length_nil, Nat.zero_add] at full
        have places := full.1
        cases reads with
        | inl read =>
          cases more with
          | nil =>
            refine absurd read.1 fun ended => full.2 ?_
            rwa [show rest = rest' from further.symbols]
          | cons d more =>
            have := read.2.1
            rw [List.length_append, List.length_cons] at this
            omega
        | inr read =>
          have := read.2.1
          rw [List.length_append] at this
          omega

/-! ## The call -/

theorem userBytes_eq {iov : List IoVec} {sum : Nat} (small : sum ≤ sizeTMax) : userBytes iov sum =
      if sum + (iov.map fun v => v.length.toNat).sum ≤ sizeTMax then
        some (sum + (iov.map fun v => v.length.toNat).sum) else none := by
  induction iov generalizing sum with
  | nil => rw [userBytes, List.map_nil, List.sum_nil, Nat.add_zero, if_pos small]
  | cons v iov ih =>
    rw [userBytes, List.map_cons, List.sum_cons, ← Nat.add_assoc]
    by_cases overflow : sum > sizeTMax - v.length.toNat
    · rw [if_pos overflow, if_neg (by omega)]
    · have : v.length.toNat ≤ sizeTMax := Nat.le_sub_one_of_lt v.length.isLt
      rw [if_neg overflow, ih (by omega)]

/-- The call takes the message off the channel and finds it headed. -/
structure Reaches (channel : Channel) (nitmhp : TypedMsgHdr) (flags : Nat) (m : Message) : Prop where
  iov : nitmhp.iov.length ≤ naclAbiImcIovecMax
  ndesc : nitmhp.ndescLength ≤ naclAbiImcUserDescMax
  total : (nitmhp.iov.map fun v => v.length.toNat).sum ≤ sizeTMax
  delivered : ∃ within, channel.lowLevelRecvMsg channel.handleCount (flags &&& naclAbiImcNonblock) =
    .delivered m within
  headed : m.Headed

theorem unanswered_answers {retval : Int} (negative : retval < 0) :
    Answers nitmhp (nitmhp.unanswered retval) where
  outcome := .inl ⟨negative, rfl⟩
  accounted := .refl _

/-- One record of a host descriptor and the end tag, without the handle of the descriptor. -/
def handleless : Message where
  bytes := [0x01, 0xde, 0xc0, 0xd3, 6, 0, 0, 0, 0, 0, 0, 0, 0, 0, 0, 0, 2, 0, 0, 0, 0, 0xff]
  handles := []
  bytes_le := by decide
  handles_le := by decide

theorem handleless_not_decoded
    (front : records.Front handleless.descriptorData handleless.handles ds rest left) :
    ¬ Ended rest := by
  have bytes : [2, 0, 0, 0, 0, 0xff] = ds.flatMap NaClDesc.wire ++ rest := front.symbols
  have handles : [] = ds.flatMap NaClDesc.handles ++ left := front.tokens
  cases ds with
  | nil =>
    rintro (none | ⟨more, isEnd⟩)
    · rw [none] at bytes
      cases bytes
    · rw [isEnd] at bytes
      exact absurd (List.cons.inj bytes).1 (by decide)
  | cons d ds =>
    rw [List.flatMap_cons, List.append_assoc, NaClDesc.wire, List.cons_append] at bytes
    have tag := congrArg BitVec.toNat (List.cons.inj bytes).1
    rw [d.toNat_tag] at tag
    obtain ⟨base, h, flags, rfl⟩ := io_of_tag tag.symm
    cases handles

end SandboxTEE.Imc
