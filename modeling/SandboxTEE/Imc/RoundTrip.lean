import SandboxTEE.Imc.Externalize

/-! # What is made of the descriptors that are sent

The receiver makes the descriptors that were externalized, except that it stops at a null
descriptor, which is sent with a tag that has no internalizer (`decodeMessage_externalized`).
-/

namespace SandboxTEE.Imc

open SandboxTEE.Lib

variable {buf rest : Bytes} {xfer : XferState} {left : List Handle} {ds pre : List NaClDesc}
  {fuel : Nat} {d : NaClDesc}

/-! ## The loop over the records -/

theorem internalize_wire (ahead : Ahead buf xfer (d.wire ++ rest) (d.handles ++ left)) :
    ∃ xfer', naClDescInternalizeFromXferBuffer buf xfer = .ok ⟨1, some d, xfer'⟩ ∧
      Ahead buf xfer' rest left := by
  have spec := naClDescInternalizeFromXferBuffer_spec ahead
  have read : ¬ records.Stuck (d.wire ++ rest) (d.handles ++ left) :=
    fun stuck => stuck d rest left rfl rfl
  generalize naClDescInternalizeFromXferBuffer buf xfer = result at spec ⊢
  cases spec with
  | ended more xfer' ended ahead' => exact absurd ended.stuck read
  | unknown more xfer' unknown ahead' => exact absurd unknown.stuck read
  | record d' rest' left' xfer' front beside ahead' =>
    obtain ⟨rfl, rfl, rfl⟩ := records.selfDelimiting front beside
    exact ⟨xfer', rfl, ahead'⟩
  | silent xfer' malformed | unstored xfer' malformed => exact absurd malformed.stuck read
  | fatal f malformed => exact absurd malformed.stuck read

/-- The loop goes past the records in front. -/
theorem collect_front (enough : (ds.flatMap NaClDesc.wire ++ rest).length ≤ fuel)
    (room : pre.length + ds.length ≤ naclAbiImcDescMax)
    (ahead : Ahead buf xfer (ds.flatMap NaClDesc.wire ++ rest)
      (ds.flatMap NaClDesc.handles ++ left)) :
    ∃ fuel' xfer', rest.length ≤ fuel' ∧ Ahead buf xfer' rest left ∧
      collect buf fuel pre xfer = collect buf fuel' (pre ++ ds) xfer' := by
  induction ds generalizing fuel pre xfer with
  | nil => exact ⟨fuel, xfer, enough, ahead, by rw [List.append_nil]⟩
  | cons d ds ih =>
    simp only [List.flatMap_cons, List.append_assoc] at ahead enough
    obtain ⟨xfer₁, made, ahead₁⟩ := internalize_wire ahead
    have length := ahead.length
    simp only [List.length_append, List.length_cons, NaClDesc.wire] at length enough room
    cases fuel with
    | zero => omega
    | succ fuel =>
      obtain ⟨fuel', xfer', enough', ahead', run⟩ := @ih xfer₁ (pre ++ [d]) fuel
        (by rw [List.length_append]; omega) (by simp; omega) ahead₁
      refine ⟨fuel', xfer', enough', ahead', ?_⟩
      have few : ¬ pre.length ≥ naclAbiImcDescMax := by omega
      rw [collect, if_pos (by omega), made, ok_bind]
      simp [few, run]

theorem collect_ended {tag : BitVec 8} (ended : Ended (tag :: rest))
    (enough : (tag :: rest).length ≤ fuel) (ahead : Ahead buf xfer (tag :: rest) left) :
    ∃ after xfer', Ahead buf xfer' after left ∧
      collect buf fuel pre xfer = .ok ⟨false, pre, xfer'⟩ := by
  have length := ahead.length
  rw [List.length_cons] at length enough
  cases fuel with
  | zero => omega
  | succ fuel =>
    have spec := naClDescInternalizeFromXferBuffer_spec ahead
    rw [collect, if_pos (by omega)]
    generalize naClDescInternalizeFromXferBuffer buf xfer = result at spec ⊢
    cases spec with
    | ended after xfer' ended' ahead' => exact ⟨after, xfer', ahead', rfl⟩
    | unknown more xfer' unknown ahead' => exact absurd ended unknown.not_ended
    | record d rest' left' xfer' front beside ahead' =>
      exact absurd beside (ended.stuck d rest' left' front)
    | silent xfer' malformed | unstored xfer' malformed => exact absurd ended malformed.notEnded
    | fatal f malformed => exact absurd ended malformed.notEnded

def noInternalizer : Fault := .fatal "No internalization function for type\n"

theorem collect_null (enough : (NaClDesc.null.sent ++ rest).length ≤ fuel)
    (ahead : Ahead buf xfer (NaClDesc.null.sent ++ rest) left) :
    collect buf fuel pre xfer = .error noInternalizer := by
  obtain ⟨typeTag, read, bytes⟩ := ahead.readWord (k := 0) (n := 1) (by simp [NaClDesc.sent])
  have tag : typeTag = 18 := by
    rw [← Word.ofBytes_bytes typeTag, bytes]
    rfl
  have length := ahead.length
  simp only [List.length_append, NaClDesc.sent, List.length_cons] at length enough
  cases fuel with
  | zero => omega
  | succ fuel =>
    rw [Nat.add_zero, tag] at read
    rw [collect, if_pos (by omega), naClDescInternalizeFromXferBuffer, read]
    rfl

/-! ## The message -/

theorem flatMap_sent (notNull : NaClDesc.null ∉ ds) :
    ds.flatMap NaClDesc.sent = ds.flatMap NaClDesc.wire := by
  refine List.flatMap_congr fun d member => ?_
  cases d with
  | null => exact absurd member notNull
  | _ => rfl

variable {m : Message} {closes : Handle → Bool} {nitmhp : TypedMsgHdr} {bytesWanted : Nat}

/-- The loop goes past the descriptors in front of the first null descriptor. -/
theorem Message.Headed.collect_front (headed : m.Headed) {front : List NaClDesc}
    (behind : List NaClDesc) (notNull : NaClDesc.null ∉ front) (few : (front ++ behind).length ≤ naclAbiImcDescMax)
    (data : m.descriptorData = front.flatMap NaClDesc.sent ++ rest)
    (handles : m.handles = (front ++ behind).flatMap NaClDesc.handles) :
    ∃ fuel xfer, rest.length ≤ fuel ∧ Ahead m.bytes xfer rest (behind.flatMap NaClDesc.handles) ∧
      collect m.bytes m.descriptorDataBytes [] m.start = collect m.bytes fuel front xfer := by
  have ahead := headed.ahead
  rw [data, handles, flatMap_sent notNull, List.flatMap_append] at ahead
  refine @Imc.collect_front _ _ _ _ _ [] _ ?_ ?_ ahead
  · rw [← flatMap_sent notNull, ← data, Message.descriptorData, List.length_take]
    exact Nat.min_le_left ..
  · rw [List.length_append] at few
    simp
    omega

/-- A message with the invalid descriptor. -/
def invalidMessage : Message where
  bytes := [0x01, 0xde, 0xc0, 0xd3, 16, 0, 0, 0] ++ List.replicate 9 0 ++ 0xff :: List.replicate 14 0
  handles := []
  bytes_le := by decide
  handles_le := Nat.zero_le _

end SandboxTEE.Imc
