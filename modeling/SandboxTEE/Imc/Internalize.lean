import SandboxTEE.Imc.WireFormat

/-! # What the internalizers make of a record

The positions of a transfer stand before some of the bytes and handles received (`Ahead`).  An
internalizer reads no others.  It makes the descriptor whose record is in front and goes past it,
or there is no record of its kind in front (`Internalizes`).
-/

namespace SandboxTEE.Imc

open SandboxTEE.Lib

/-! ## Positions -/

/-- What is ahead of the positions of a transfer in which nothing has been closed. -/
structure Ahead (buf : Bytes) (xfer : XferState) (bytes : Bytes) (handles : List Handle) :
    Prop where
  within : xfer.byteBufferEnd ≤ buf.length
  reached : xfer.nextByte ≤ xfer.byteBufferEnd
  bytes : (buf.drop xfer.nextByte).take (xfer.byteBufferEnd - xfer.nextByte) = bytes
  kernHandle : ∃ spare, xfer.kernHandle =
    List.replicate xfer.nextHandle none ++ (handles.map some ++ List.replicate spare none)
  handleEnd : xfer.handleBufferEnd = xfer.nextHandle + handles.length
  closed : xfer.closed = []

variable {buf bytes : Bytes} {xfer : XferState} {hs : List Handle}

theorem Ahead.length (ahead : Ahead buf xfer bytes hs) :
    bytes.length = xfer.byteBufferEnd - xfer.nextByte := by
  have := ahead.within
  rw [← ahead.bytes, List.length_take, List.length_drop]
  omega

theorem Ahead.read (ahead : Ahead buf xfer bytes hs) {k n : Nat} (fits : k + n ≤ bytes.length) :
    ∃ bs, readBytes buf (xfer.nextByte + k) n = .ok bs ∧ bs.1 = (bytes.drop k).take n := by
  have length := ahead.length
  have within := ahead.within
  have reached := ahead.reached
  have inside : xfer.nextByte + k + n ≤ buf.length := by omega
  refine ⟨_, dif_pos inside, ?_⟩
  rw [← ahead.bytes, List.drop_take, List.take_take, List.drop_drop, Nat.min_eq_left (by omega)]

theorem Ahead.readWord (ahead : Ahead buf xfer bytes hs) {k n : Nat} (fits : k + n ≤ bytes.length) :
    ∃ w, readWord n buf (xfer.nextByte + k) = .ok w ∧ w.bytes = (bytes.drop k).take n := by
  obtain ⟨bs, read, value⟩ := ahead.read fits
  refine ⟨Word.ofBytes n bs.1, ?_, ?_⟩
  · rw [Imc.readWord, read]
    rfl
  · rw [Word.bytes_ofBytes bs.2, value]

theorem Ahead.skip (ahead : Ahead buf xfer bytes hs) {n : Nat} (fits : n ≤ bytes.length) :
    Ahead buf { xfer with nextByte := xfer.nextByte + n } (bytes.drop n) hs where
  within := ahead.within
  reached := by
    have := ahead.length
    have := ahead.reached
    show xfer.nextByte + n ≤ xfer.byteBufferEnd
    omega
  bytes := by
    rw [← ahead.bytes, List.drop_take, List.drop_drop, Nat.sub_sub]
  kernHandle := ahead.kernHandle
  handleEnd := ahead.handleEnd
  closed := ahead.closed

theorem Ahead.no_handle (ahead : Ahead buf xfer bytes hs) :
    xfer.nextHandle = xfer.handleBufferEnd ↔ hs = [] := by
  rw [ahead.handleEnd, ← List.length_eq_zero_iff]
  omega

theorem Ahead.take {h : Handle} (ahead : Ahead buf xfer bytes (h :: hs)) :
    ∃ xfer', xfer.takeHandle = .ok (h, xfer') ∧ Ahead buf xfer' bytes hs ∧
      xfer'.nextByte = xfer.nextByte ∧ xfer'.byteBufferEnd = xfer.byteBufferEnd := by
  obtain ⟨spare, slots⟩ := ahead.kernHandle
  have here : xfer.kernHandle[xfer.nextHandle]? = some (some h) := by
    rw [slots, List.getElem?_append_right (by simp)]
    simp
  have taken : xfer.takeHandle = .ok (h, { xfer with
      kernHandle := xfer.kernHandle.set xfer.nextHandle none
      nextHandle := xfer.nextHandle + 1 }) := by
    rw [XferState.takeHandle, here]
  refine ⟨_, taken, ⟨ahead.within, ahead.reached, ahead.bytes, ⟨spare, ?_⟩, ?_, ahead.closed⟩,
    rfl, rfl⟩
  · show xfer.kernHandle.set xfer.nextHandle none = _
    rw [slots, List.set_append_right _ _ (by simp), List.replicate_succ', List.append_assoc]
    simp
  · show xfer.handleBufferEnd = xfer.nextHandle + 1 + hs.length
    rw [ahead.handleEnd, List.length_cons]
    omega

/-- The handles ahead are those that `cleanup` finds. -/
theorem Ahead.kept (ahead : Ahead buf xfer bytes hs) : xfer.kernHandle.filterMap id = hs := by
  obtain ⟨spare, slots⟩ := ahead.kernHandle
  simp [slots, List.filterMap_append, List.filterMap_map]

/-! ## The base of a descriptor -/

@[simp] theorem ok_bind {ε α β : Type} (a : α) (f : α → Except ε β) :
    (Except.ok a >>= f) = f a := rfl

theorem drop_split (bs : Bytes) (k n : Nat) :
    bs.drop k = (bs.drop k).take n ++ bs.drop (k + n) := by
  rw [← List.drop_drop, List.take_append_drop]

theorem DescBase.length_wire (base : DescBase) : 4 ≤ base.wire.length := by
  rw [DescBase.wire, List.length_append, Word.length_bytes]
  omega

theorem DescBase.wire_of_metadata {base : DescBase} (announced : hasMetadata base.flags = true) :
    ∃ m, base.wire = base.flags.bytes ++ Metadata.wire m := by
  have := base.announced
  rw [announced, Option.isSome_iff_exists] at this
  obtain ⟨m, metadata⟩ := this
  exact ⟨m, by rw [DescBase.wire, metadata]; rfl⟩

theorem Metadata.length_wire (m : Metadata) : m.wire.length = 8 + m.bytes.length := by
  simp only [Metadata.wire, List.length_append, Word.length_bytes, length_leBytes]
  omega

theorem internalizeCtor_spec (ahead : Ahead buf xfer bytes hs) :
    (∃ base rest xfer', bytes = base.wire ++ rest ∧
      naClDescInternalizeCtor buf xfer = .ok (some base, xfer') ∧ Ahead buf xfer' rest hs) ∨
    naClDescInternalizeCtor buf xfer = .ok (none, xfer) ∧
      ∀ (base : DescBase) rest, bytes ≠ base.wire ++ rest := by
  have length := ahead.length
  have reached := ahead.reached
  rw [naClDescInternalizeCtor]
  by_cases short : xfer.nextByte + 4 > xfer.byteBufferEnd
  · refine .inr ⟨if_pos short, fun base rest same => ?_⟩
    have := base.length_wire
    have := congrArg List.length same
    rw [List.length_append] at this
    omega
  obtain ⟨flags, readFlags, flagBytes⟩ := ahead.readWord (k := 0) (n := 4) (by omega)
  have split : bytes = flags.bytes ++ bytes.drop 4 := by
    rw [flagBytes, List.drop_zero, List.take_append_drop]
  rw [Nat.add_zero] at readFlags
  rw [if_neg short, readFlags]
  by_cases plain : hasMetadata flags = false
  · refine .inl ⟨⟨flags, none, plain.symm⟩, bytes.drop 4, _, ?_, dif_pos plain,
      ahead.skip (by omega)⟩
    rw [DescBase.wire, Option.elim_none, List.append_nil]
    exact split
  have announced := Bool.of_not_eq_false plain
  -- A record in front has these flags, so it has metadata.
  have front : ∀ {base : DescBase} {rest : Bytes}, bytes = base.wire ++ rest →
      ∃ m : Metadata, bytes.drop 4 = m.wire ++ rest := by
    intro base rest same
    have flags_eq : flags = base.flags := by
      rw [split, DescBase.wire, List.append_assoc] at same
      exact (word_append_inj same).1
    obtain ⟨m, wire⟩ := base.wire_of_metadata (flags_eq ▸ announced)
    rw [split, wire, ← flags_eq, List.append_assoc] at same
    exact ⟨m, (word_append_inj same).2⟩
  rw [ok_bind, dif_neg plain]
  by_cases shortMetadata : xfer.nextByte + 12 > xfer.byteBufferEnd
  · refine .inr ⟨if_pos shortMetadata, fun base rest same => ?_⟩
    obtain ⟨m, wire⟩ := front same
    have := congrArg List.length wire
    rw [List.length_drop, List.length_append, m.length_wire] at this
    omega
  obtain ⟨type, readType, typeBytes⟩ := ahead.readWord (k := 4) (n := 4) (by omega)
  obtain ⟨numBytes, readNum, numBytesBytes⟩ := ahead.readWord (k := 8) (n := 4) (by omega)
  have splitMetadata : bytes.drop 4 = type.bytes ++ (numBytes.bytes ++ bytes.drop 12) := by
    rw [typeBytes, numBytesBytes, ← drop_split bytes 8 4, ← drop_split bytes 4 4]
  rw [if_neg shortMetadata, readType, ok_bind, readNum, ok_bind]
  by_cases shortBytes : xfer.nextByte + 12 + numBytes.toNat > xfer.byteBufferEnd
  · refine .inr ⟨if_pos shortBytes, fun base rest same => ?_⟩
    obtain ⟨m, wire⟩ := front same
    rw [splitMetadata, Metadata.wire, List.append_assoc, List.append_assoc] at wire
    obtain ⟨num, bytesBehind⟩ := leBytes_append_inj numBytes.isLt m.fits (word_append_inj wire).2
    have := congrArg List.length bytesBehind
    rw [List.length_drop, List.length_append] at this
    omega
  obtain ⟨metadata, readMetadata, metadataBytes⟩ :=
    ahead.read (k := 12) (n := numBytes.toNat) (by omega)
  rw [if_neg shortBytes, readMetadata, ok_bind]
  refine .inl ⟨_, bytes.drop (12 + numBytes.toNat), _, ?_, rfl, ?_⟩
  · show bytes = flags.bytes ++ (type.bytes ++ (leBytes 4 metadata.1.length ++ metadata.1)) ++ _
    rw [metadata.2, metadataBytes, List.append_assoc, List.append_assoc, List.append_assoc,
      ← drop_split bytes 12 numBytes.toNat]
    exact split.trans (congrArg (flags.bytes ++ ·) splitMetadata)
  · have := ahead.skip (n := 12 + numBytes.toNat) (by omega)
    rwa [← Nat.add_assoc] at this

/-! ## Internalizers -/

/-- No descriptor of the kind has its record in front. -/
def Absent (tag : Nat) (bytes : Bytes) (hs : List Handle) : Prop :=
  ∀ (d : NaClDesc) rest left, d.tag = tag → bytes = d.body ++ rest → hs ≠ d.handles ++ left

/-- What the internalizer of a kind does with the bytes behind the tag. -/
inductive Internalizes (buf : Bytes) (tag : Nat) (bytes : Bytes) (hs : List Handle) :
    Except Fault Internalized → Prop where
  | made (d : NaClDesc) (rest : Bytes) (left : List Handle) (xfer : XferState)
      (kind : d.tag = tag) (front : bytes = d.body ++ rest) (beside : hs = d.handles ++ left)
      (ahead : Ahead buf xfer rest left) : Internalizes buf tag bytes hs (.ok ⟨0, some d, xfer⟩)
  | unmade (rv : Int) (xfer : XferState) (absent : Absent tag bytes hs) :
      Internalizes buf tag bytes hs (.ok ⟨rv, none, xfer⟩)

theorem internalizeHandle_spec {unread : Int} {make : DescBase → Handle → NaClDesc} {tag : Nat}
    (kind : ∀ base h, (make base h).tag = tag) (body : ∀ base h, (make base h).body = base.wire)
    (handles : ∀ base h, (make base h).handles = [h])
    (shape : ∀ d : NaClDesc, d.tag = tag → ∃ base h, d = make base h)
    (ahead : Ahead buf xfer bytes hs) :
    Internalizes buf tag bytes hs (internalizeHandle unread make buf xfer) := by
  rw [internalizeHandle]
  obtain ⟨base, rest, xfer', front, read, ahead'⟩ | ⟨read, noBase⟩ := internalizeCtor_spec ahead
  · rw [read, ok_bind]
    cases hs with
    | nil =>
      simp only [if_pos (ahead'.no_handle.mpr rfl)]
      refine .unmade _ _ ?_
      intro d rest left isKind _ beside
      obtain ⟨base, h, rfl⟩ := shape d isKind
      rw [handles] at beside
      cases beside
    | cons h hs =>
      obtain ⟨xfer'', taken, ahead'', -, -⟩ := ahead'.take
      have more : xfer'.nextHandle ≠ xfer'.handleBufferEnd := by
        rw [Ne, ahead'.no_handle]
        exact List.cons_ne_nil h hs
      simp only [if_neg more, taken, ok_bind]
      exact .made (make base h) rest hs xfer'' (kind base h) (by rw [body, front])
        (by rw [handles]; rfl) ahead''
  · rw [read, ok_bind]
    refine .unmade _ _ ?_
    intro d rest left isKind front _
    obtain ⟨base, h, rfl⟩ := shape d isKind
    rw [body] at front
    exact noBase base rest front

theorem naClDescConnCapFdInternalize_spec (ahead : Ahead buf xfer bytes hs) :
    Internalizes buf 4 bytes hs (naClDescConnCapFdInternalize buf xfer) := by
  refine internalizeHandle_spec (fun _ _ => rfl) (fun _ _ => rfl) (fun _ _ => rfl) ?_ ahead
  intro d kind
  cases d with
  | connCapFd base h => exact ⟨base, h, rfl⟩
  | _ => cases kind

theorem naClDescSyncSocketInternalize_spec (ahead : Ahead buf xfer bytes hs) :
    Internalizes buf 12 bytes hs (naClDescSyncSocketInternalize buf xfer) := by
  refine internalizeHandle_spec (fun _ _ => rfl) (fun _ _ => rfl) (fun _ _ => rfl) ?_ ahead
  intro d kind
  cases d with
  | syncSocket base h => exact ⟨base, h, rfl⟩
  | _ => cases kind

theorem naClDescXferableDataDescInternalize_spec (ahead : Ahead buf xfer bytes hs) :
    Internalizes buf 13 bytes hs (naClDescXferableDataDescInternalize buf xfer) := by
  refine internalizeHandle_spec (fun _ _ => rfl) (fun _ _ => rfl) (fun _ _ => rfl) ?_ ahead
  intro d kind
  cases d with
  | xferableDataDesc base h => exact ⟨base, h, rfl⟩
  | _ => cases kind

theorem io_of_tag {d : NaClDesc} (kind : d.tag = 2) : ∃ base h flags, d = .io base h flags := by
  cases d with
  | io base h flags => exact ⟨base, h, flags, rfl⟩
  | _ => cases kind

theorem imcShm_of_tag {d : NaClDesc} (kind : d.tag = 7) :
    ∃ base h size, d = .imcShm base h size := by
  cases d with
  | imcShm base h size => exact ⟨base, h, size, rfl⟩
  | _ => cases kind

theorem naClDescIoInternalize_spec (ahead : Ahead buf xfer bytes hs) :
    Internalizes buf 2 bytes hs (naClDescIoInternalize buf xfer) := by
  rw [naClDescIoInternalize]
  obtain ⟨base, rest, xfer', front, read, ahead'⟩ | ⟨read, noBase⟩ := internalizeCtor_spec ahead
  · rw [read, ok_bind]
    -- A record in front has this base and then its flags.
    have inFront : ∀ {d : NaClDesc} {rest' left : _}, d.tag = 2 → bytes = d.body ++ rest' →
        hs = d.handles ++ left →
        ∃ h flags, rest = flags.1.bytes ++ rest' ∧ d = .io base h flags ∧ hs = h :: left := by
      intro d rest' left kind same beside
      obtain ⟨base', h, flags, rfl⟩ := io_of_tag kind
      rw [front, NaClDesc.body, List.append_assoc] at same
      obtain ⟨rfl, behind⟩ := DescBase.wire_append_inj same
      exact ⟨h, flags, behind, rfl, beside⟩
    have length := ahead'.length
    have reached := ahead'.reached
    by_cases missing : xfer'.nextHandle = xfer'.handleBufferEnd ∨
        xfer'.nextByte + 4 > xfer'.byteBufferEnd
    · simp only [if_pos missing]
      refine .unmade _ _ ?_
      intro d rest' left kind same beside
      obtain ⟨h, flags, behind, -, handles⟩ := inFront kind same beside
      cases missing with
      | inl noHandle =>
        rw [ahead'.no_handle.mp noHandle] at handles
        cases handles
      | inr short =>
        have := congrArg List.length behind
        rw [List.length_append, Word.length_bytes] at this
        omega
    · obtain ⟨someHandle, enough⟩ := not_or.mp missing
      simp only [if_neg missing]
      cases hs with
      | nil => exact absurd (ahead'.no_handle.mpr rfl) someHandle
      | cons h hs =>
        obtain ⟨flags, readFlags, flagBytes⟩ := ahead'.readWord (k := 0) (n := 4) (by omega)
        obtain ⟨xfer'', taken, ahead'', -, -⟩ := (ahead'.skip (n := 4) (by omega)).take
        have split : rest = flags.bytes ++ rest.drop 4 := by
          rw [flagBytes, List.drop_zero, List.take_append_drop]
        rw [Nat.add_zero] at readFlags
        rw [readFlags, ok_bind, taken, ok_bind]
        by_cases refused : naClHostDescPosixTake flags < 0
        · simp only [dif_pos refused]
          refine .unmade _ _ ?_
          intro d rest' left kind same beside
          obtain ⟨h', flags', behind, -, -⟩ := inFront kind same beside
          rw [split] at behind
          exact flags'.2 ((word_append_inj behind).1 ▸ refused)
        · simp only [dif_neg refused]
          refine .made (.io base h ⟨flags, refused⟩) (rest.drop 4) hs xfer'' rfl ?_ rfl ahead''
          rw [front, NaClDesc.body, List.append_assoc, ← split]
  · rw [read, ok_bind]
    refine .unmade _ _ ?_
    intro d rest left kind front _
    obtain ⟨base, h, flags, rfl⟩ := io_of_tag kind
    rw [NaClDesc.body, List.append_assoc] at front
    exact noBase base _ front

theorem naClDescImcShmInternalize_spec (ahead : Ahead buf xfer bytes hs) :
    Internalizes buf 7 bytes hs (naClDescImcShmInternalize buf xfer) := by
  rw [naClDescImcShmInternalize]
  obtain ⟨base, rest, xfer', front, read, ahead'⟩ | ⟨read, noBase⟩ := internalizeCtor_spec ahead
  · rw [read, ok_bind]
    -- A record in front has this base and then its size.
    have inFront : ∀ {d : NaClDesc} {rest' left : _}, d.tag = 7 → bytes = d.body ++ rest' →
        hs = d.handles ++ left →
        ∃ h size, rest = size.1.bytes ++ rest' ∧ d = .imcShm base h size ∧ hs = h :: left := by
      intro d rest' left kind same beside
      obtain ⟨base', h, size, rfl⟩ := imcShm_of_tag kind
      rw [front, NaClDesc.body, List.append_assoc] at same
      obtain ⟨rfl, behind⟩ := DescBase.wire_append_inj same
      exact ⟨h, size, behind, rfl, beside⟩
    have length := ahead'.length
    have reached := ahead'.reached
    cases hs with
    | nil =>
      simp only [if_pos (ahead'.no_handle.mpr rfl)]
      refine .unmade _ _ ?_
      intro d rest' left kind same beside
      obtain ⟨h, size, -, -, handles⟩ := inFront kind same beside
      cases handles
    | cons h hs =>
      have more : xfer'.nextHandle ≠ xfer'.handleBufferEnd := by
        rw [Ne, ahead'.no_handle]
        exact List.cons_ne_nil h hs
      simp only [if_neg more]
      by_cases short : xfer'.nextByte + 8 > xfer'.byteBufferEnd
      · simp only [if_pos short]
        refine .unmade _ _ ?_
        intro d rest' left kind same beside
        obtain ⟨h, size, behind, -, -⟩ := inFront kind same beside
        have := congrArg List.length behind
        rw [List.length_append, Word.length_bytes] at this
        omega
      · simp only [if_neg short]
        obtain ⟨xfer'', taken, ahead'', -, -⟩ := ahead'.take
        have length' := ahead''.length
        obtain ⟨size, readSize, sizeBytes⟩ := ahead''.readWord (k := 0) (n := 8) (by omega)
        have split : rest = size.bytes ++ rest.drop 8 := by
          rw [sizeBytes, List.drop_zero, List.take_append_drop]
        rw [Nat.add_zero] at readSize
        rw [taken, ok_bind, readSize, ok_bind]
        by_cases made : naClDescImcShmSubclassCtor size = true
        · simp only [dif_pos made]
          refine .made (.imcShm base h ⟨size, made⟩) (rest.drop 8) hs _ rfl ?_ rfl
            (ahead''.skip (by omega))
          rw [front, NaClDesc.body, List.append_assoc, ← split]
        · simp only [dif_neg made]
          refine .unmade _ _ ?_
          intro d rest' left kind same beside
          obtain ⟨h', size', behind, -, -⟩ := inFront kind same beside
          rw [split] at behind
          exact made ((word_append_inj behind).1 ▸ size'.2)
  · rw [read, ok_bind]
    refine .unmade _ _ ?_
    intro d rest left kind front _
    obtain ⟨base, h, size, rfl⟩ := imcShm_of_tag kind
    rw [NaClDesc.body, List.append_assoc] at front
    exact noBase base _ front

end SandboxTEE.Imc
