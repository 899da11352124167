import SandboxTEE.Imc.Receive

/-! # Externalizing the descriptors of a message (`nrd_xfer.c`)

`NaClImcSendTypedMessage` adds up the sizes of the records of the descriptors, allocates a buffer
and writes the records to it behind a header.  No write is outside the buffer or the array of
handles, and no byte of the buffer is left as it was (`externalizeDescs_spec`).
-/

namespace SandboxTEE.Imc

open SandboxTEE.Lib

def eoverflow : Int := 75

def naclAbiSizeTMax : Nat := 2 ^ 32 - 1

/-! ## Externalizing one descriptor -/

/-- The `typeTag` of the vtable.  `NACL_DESC_HOST_SOCKET` comes before `NACL_DESC_NULL`, but the
    table of internalizers has no entry for it. -/
def NaClDesc.typeTag : NaClDesc → Nat
  | .null => 18
  | d => d.tag

/-- `nbytes` and `nhandles`; metadata is there when the flags announce it. -/
def naClDescExternalizeSize (base : DescBase) : Nat × Nat :=
  (base.metadata.elim 4 fun m => 4 + (4 + 4 + m.bytes.length), 0)

/-- The size of a descriptor with one handle and `extra` bytes behind the base. -/
def withHandle (extra : Nat) (base : DescBase) : Nat × Nat :=
  ((naClDescExternalizeSize base).1 + extra, (naClDescExternalizeSize base).2 + 1)

/-- The entry `ExternalizeSize` of the vtable. -/
def NaClDesc.externalizeSize : NaClDesc → Nat × Nat
  | .invalid | .null => (0, 0)
  | .io base .. => withHandle 4 base
  | .imcShm base .. => withHandle 8 base
  | .connCapFd base _ | .syncSocket base _ | .xferableDataDesc base _ => withHandle 0 base

/-- What has been written behind the header, the room left for more, and the slots of
    `kern_handle` that have been filled. -/
structure XferOut where
  bytes : Bytes
  room : Nat
  handles : List Handle

def putBytes (bs : Bytes) (xfer : XferOut) : Except Fault XferOut :=
  if bs.length ≤ xfer.room then
    .ok { xfer with bytes := xfer.bytes ++ bs, room := xfer.room - bs.length }
  else .error .outside

def putHandle (h : Handle) (xfer : XferOut) : Except Fault XferOut :=
  if xfer.handles.length < naclAbiImcDescMax then .ok { xfer with handles := xfer.handles ++ [h] }
  else .error .outside

def naClDescExternalize (base : DescBase) (xfer : XferOut) : Except Fault XferOut := do
  let xfer ← putBytes base.flags.bytes xfer
  match base.metadata with
  | none => pure xfer
  | some m => putBytes m.type.bytes xfer >>= putBytes (leBytes 4 m.bytes.length) >>= putBytes m.bytes

/-- The entry `Externalize` of the vtable. -/
def NaClDesc.externalize (xfer : XferOut) : NaClDesc → Except Fault XferOut
  | .invalid | .null => pure xfer
  | .io base d flags => naClDescExternalize base xfer >>= putBytes flags.1.bytes >>= putHandle d
  | .imcShm base h size => naClDescExternalize base xfer >>= putHandle h >>= putBytes size.1.bytes
  | .connCapFd base h | .syncSocket base h | .xferableDataDesc base h =>
    naClDescExternalize base xfer >>= putHandle h

def naClDescExternalizeToXferBuffer (xfer : XferOut) (out : NaClDesc) : Except Fault XferOut := do
  let xfer ← putBytes [BitVec.ofNat 8 out.typeTag] xfer
  out.externalize xfer

/-! ## The descriptors of a message -/

/-- The loop that adds up `sys_bytes` and `sys_handles`.  There is `none` for a descriptor of a kind
    with `NaClDescExternalizeSizeNotImplemented`. -/
def sysSizes : List (Option NaClDesc) → (sysBytes sysHandles : Nat) → Except Int (Nat × Nat)
  | [], sysBytes, sysHandles => .ok (sysBytes, sysHandles)
  | none :: _, _, _ => .error (-einval)
  | some d :: ds, sysBytes, sysHandles =>
    let (descBytes, descHandles) := d.externalizeSize
    if descBytes > naclAbiSizeTMax - 1 ∨ descBytes + 1 > naclAbiSizeTMax - sysBytes ∨
        descHandles > naclAbiSizeTMax - sysHandles then .error (-eoverflow)
    else sysSizes ds (sysBytes + (1 + descBytes)) (sysHandles + descHandles)

/-- What is left of the buffer after the end tag is filled with zeros. -/
def fillBuffer (sysBytes : Nat) (ds : List NaClDesc) : Except Fault XferOut := do
  let xfer ← ds.foldlM naClDescExternalizeToXferBuffer ⟨[], sysBytes, []⟩ >>=
    putBytes [BitVec.ofNat 8 naclDescTypeEndTag]
  putBytes (List.replicate xfer.room 0) xfer

def bufferSizeOverflow : Fault := .fatal "NaClImcSendTypedMessage: Buffer size overflow"

/-- The part of `NaClImcSendTypedMessage` for a message with descriptors: an error, or what is put
    behind the header and in `kern_handle`. -/
def externalizeDescs (allocated : Bool) (ndescv : List (Option NaClDesc)) :
    Except Fault (Except Int (Bytes × List Handle)) :=
  match sysSizes ndescv 0 0 with
  | .error retval => .ok (.error retval)
  | .ok (sysBytes, sysHandles) =>
    if sysHandles > naclAbiImcDescMax then .error (.fatal "more than the max of 8")
    else
      let sysBytes := (sysBytes + 1 + 0xf) / 16 * 16
      if sysBytes > naclAbiSizeTMax - sizeofInternHdr then .error bufferSizeOverflow
      else if allocated = false then .ok (.error (-enomem))
      else if sysBytes > 2 ^ 32 - 1 then .ok (.error (-eoverflow))
      else do
        -- A descriptor without an externalizer has ended the first loop.
        let xfer ← fillBuffer sysBytes (ndescv.filterMap id)
        if 0 < xfer.room ∨ xfer.handles.length < sysHandles then .error .indeterminate
        else pure (.ok (xfer.bytes, xfer.handles.take sysHandles))

/-! ## What is written -/

/-- The record that a descriptor is sent as. -/
def NaClDesc.sent (d : NaClDesc) : Bytes := BitVec.ofNat 8 d.typeTag :: d.body

/-- The operation writes `bs` and fills slots with `more`, where there is room for them. -/
def Writes (f : XferOut → Except Fault XferOut) (bs : Bytes) (more : List Handle) : Prop :=
  ∀ xfer : XferOut, bs.length ≤ xfer.room → xfer.handles.length + more.length ≤ naclAbiImcDescMax →
    f xfer = .ok ⟨xfer.bytes ++ bs, xfer.room - bs.length, xfer.handles ++ more⟩

variable {bs bs' : Bytes} {hs hs' : List Handle} {f g : XferOut → Except Fault XferOut}

theorem writes_nil : Writes pure [] [] := by
  intro xfer _ _
  simp
  rfl

theorem putBytes_writes (bs : Bytes) : Writes (putBytes bs) bs [] := by
  intro xfer fits _
  simp [putBytes, fits]

theorem putHandle_writes (h : Handle) : Writes (putHandle h) [] [h] := by
  intro xfer _ slot
  simp [putHandle, Nat.lt_of_succ_le slot]

theorem Writes.bind (first : Writes f bs hs) (second : Writes g bs' hs') :
    Writes (fun xfer => f xfer >>= g) (bs ++ bs') (hs ++ hs') := by
  intro xfer fits slots
  simp only [List.length_append] at fits slots
  simp only [first xfer (by omega) (by omega), ok_bind]
  rw [second _ (by simp; omega) (by simp; omega)]
  simp [Nat.sub_sub]

theorem naClDescExternalize_writes (base : DescBase) :
    Writes (naClDescExternalize base) base.wire [] := by
  obtain ⟨flags, metadata, announced⟩ := base
  cases metadata with
  | none => exact (putBytes_writes _).bind writes_nil
  | some m =>
    exact (putBytes_writes _).bind (((putBytes_writes _).bind (putBytes_writes _)).bind
      (putBytes_writes _))

theorem externalize_writes (d : NaClDesc) : Writes (NaClDesc.externalize · d) d.body d.handles := by
  cases d with
  | invalid | null => exact writes_nil
  | io base h flags =>
    have := ((naClDescExternalize_writes base).bind (putBytes_writes flags.1.bytes)).bind
      (putHandle_writes h)
    simpa [NaClDesc.externalize, NaClDesc.body, NaClDesc.handles] using this
  | imcShm base h size =>
    have := ((naClDescExternalize_writes base).bind (putHandle_writes h)).bind
      (putBytes_writes size.1.bytes)
    simpa [NaClDesc.externalize, NaClDesc.body, NaClDesc.handles] using this
  | connCapFd base h | syncSocket base h | xferableDataDesc base h =>
    have := (naClDescExternalize_writes base).bind (putHandle_writes h)
    simpa [NaClDesc.externalize, NaClDesc.body, NaClDesc.handles] using this

theorem naClDescExternalizeToXferBuffer_writes (d : NaClDesc) :
    Writes (naClDescExternalizeToXferBuffer · d) d.sent d.handles :=
  (putBytes_writes _).bind (externalize_writes d)

theorem foldlM_writes (ds : List NaClDesc) :
    Writes (ds.foldlM naClDescExternalizeToXferBuffer) (ds.flatMap NaClDesc.sent)
      (ds.flatMap NaClDesc.handles) := by
  induction ds with
  | nil => exact writes_nil
  | cons d ds ih => exact (naClDescExternalizeToXferBuffer_writes d).bind ih

/-! ## The sizes -/

theorem withHandle_eq (extra : Nat) (base : DescBase) :
    withHandle extra base = (base.wire.length + extra, 1) := by
  obtain ⟨flags, metadata, announced⟩ := base
  cases metadata with
  | none => simp [DescBase.wire, withHandle, naClDescExternalizeSize]
  | some m => simp [DescBase.wire, Metadata.wire, withHandle, naClDescExternalizeSize]; omega

/-- The sizes are those of what is written. -/
theorem NaClDesc.externalizeSize_eq (d : NaClDesc) :
    d.externalizeSize = (d.body.length, d.handles.length) := by
  cases d with
  | invalid | null => rfl
  | _ => simp [NaClDesc.externalizeSize, withHandle_eq, NaClDesc.body, NaClDesc.handles]

theorem length_handles_le (ds : List NaClDesc) :
    (ds.flatMap NaClDesc.handles).length ≤ ds.length := by
  induction ds with
  | nil => rfl
  | cons d ds ih =>
    have : d.handles.length ≤ 1 := by cases d <;> simp [NaClDesc.handles]
    rw [List.flatMap_cons, List.length_append, List.length_cons]
    omega

/-- `sysSizes` refuses, or the descriptors are all of kinds with an externalizer. -/
theorem sysSizes_spec (ndescv : List (Option NaClDesc)) (sysBytes sysHandles : Nat) :
    (∃ retval, sysSizes ndescv sysBytes sysHandles = .error retval ∧ retval < 0) ∨
    ∃ ds : List NaClDesc, ndescv = ds.map some ∧ sysSizes ndescv sysBytes sysHandles =
      .ok (sysBytes + (ds.flatMap NaClDesc.sent).length,
        sysHandles + (ds.flatMap NaClDesc.handles).length) := by
  induction ndescv generalizing sysBytes sysHandles with
  | nil => exact .inr ⟨[], rfl, rfl⟩
  | cons entry ndescv ih =>
    cases entry with
    | none => exact .inl ⟨_, rfl, by simp [einval]⟩
    | some d =>
      simp only [sysSizes, d.externalizeSize_eq]
      split
      · exact .inl ⟨_, rfl, by simp [eoverflow]⟩
      · cases ih _ _ with
        | inl failed => exact .inl failed
        | inr sized =>
          obtain ⟨ds, rfl, run⟩ := sized
          refine .inr ⟨d :: ds, rfl, ?_⟩
          rw [run]
          simp [NaClDesc.sent]
          omega

/-! ## The call -/

/-- `sys_bytes`. -/
def sysBytes (ds : List NaClDesc) : Nat :=
  ((ds.flatMap NaClDesc.sent).length + 1 + 0xf) / 16 * 16

/-- The records, the end tag and zeros. -/
def descriptorBlock (ds : List NaClDesc) : Bytes :=
  ds.flatMap NaClDesc.sent ++ ([BitVec.ofNat 8 naclDescTypeEndTag] ++
    List.replicate (sysBytes ds - ((ds.flatMap NaClDesc.sent).length + 1)) 0)

theorem fillBuffer_ok {ds : List NaClDesc} (few : ds.length ≤ naclAbiImcDescMax) :
    fillBuffer (sysBytes ds) ds = .ok ⟨descriptorBlock ds, 0, ds.flatMap NaClDesc.handles⟩ := by
  have slots := (length_handles_le ds).trans few
  have ending : (ds.flatMap NaClDesc.sent ++ [BitVec.ofNat 8 naclDescTypeEndTag]).length ≤
      sysBytes ds := by
    rw [sysBytes, List.length_append, List.length_singleton]
    omega
  have records := (foldlM_writes ds).bind (putBytes_writes [BitVec.ofNat 8 naclDescTypeEndTag])
    ⟨[], sysBytes ds, []⟩ ending (by simpa [-List.length_flatMap])
  rw [fillBuffer]
  refine (congrArg (· >>= _) records).trans ?_
  rw [ok_bind, putBytes_writes _ _ (by simp) (by simpa [-List.length_flatMap])]
  simp [descriptorBlock, -List.length_flatMap]

/-- The call is refused, or stopped where the buffer is too large, or writes the records of all
    the descriptors. -/
theorem externalizeDescs_spec (allocated : Bool) (ndescv : List (Option NaClDesc))
    (few : ndescv.length ≤ naclAbiImcUserDescMax) :
    (∃ retval, externalizeDescs allocated ndescv = .ok (.error retval) ∧ retval < 0) ∨
    ∃ ds : List NaClDesc, ndescv = ds.map some ∧
      (externalizeDescs allocated ndescv = .error bufferSizeOverflow ∧
          naclAbiSizeTMax - sizeofInternHdr < sysBytes ds ∨ externalizeDescs allocated ndescv =
          .ok (.ok (descriptorBlock ds, ds.flatMap NaClDesc.handles))) := by
  rw [externalizeDescs]
  cases sysSizes_spec ndescv 0 0 with
  | inl failed =>
    obtain ⟨retval, run, negative⟩ := failed
    rw [run]
    exact .inl ⟨retval, rfl, negative⟩
  | inr sized =>
    obtain ⟨ds, rfl, run⟩ := sized
    rw [List.length_map] at few
    rw [Nat.zero_add, Nat.zero_add] at run
    have slots : ¬ (ds.flatMap NaClDesc.handles).length > naclAbiImcDescMax :=
      Nat.not_lt.mpr ((length_handles_le ds).trans few)
    rw [run]
    simp only [if_neg slots]
    rw [← sysBytes]
    split
    · rename_i large
      exact .inr ⟨ds, rfl, .inl ⟨rfl, large⟩⟩
    split
    · exact .inl ⟨_, rfl, by simp [enomem]⟩
    split
    · exact .inl ⟨_, rfl, by simp [eoverflow]⟩
    refine .inr ⟨ds, rfl, .inr ?_⟩
    rw [List.filterMap_map, Function.id_comp, List.filterMap_some, fillBuffer_ok few, ok_bind]
    simp [-List.length_flatMap]
    rfl

end SandboxTEE.Imc
