import SandboxTEE.Attestation.Scanners

/-! # What the parsers of the response read

A run is sound unless it reaches undefined behaviour; a failed assertion ends it.
`extract_certificates_from_response_header` is sound only if the line with the certificates ends
inside the header, something in it is escaped, and no search leaves its text.
-/

namespace SandboxTEE.Attestation

open SandboxTEE.Lib
open SandboxTEE.Stdlib

def Sound {α : Type} (run : Except Fault α) : Prop := run ≠ .error .undefined

section Sound

variable {α β : Type} {haystack needle : List Byte}

theorem sound_ok (result : α) : Sound (.ok result : Except Fault α) := fun same => by cases same

theorem sound_assertion : Sound (.error .assertion : Except Fault α) := fun same => by cases same

/-- A search whose result is asserted to be there, and what follows. -/
theorem sound_search (nonempty : needle ≠ []) {next : Nat → Except Fault α} :
    Sound (myMemmem haystack needle >>= fun found => assertFound found >>= next) ↔
      ¬ Overruns needle haystack ∧
        ∀ p, firstOccurrence needle haystack = some p → Sound (next p) := by
  by_cases overruns : Overruns needle haystack
  · rw [(myMemmem_spec nonempty haystack).1 overruns]
    exact iff_of_false (fun sound => sound rfl) fun fine => fine.1 overruns
  · rw [(myMemmem_spec nonempty haystack).2 overruns, and_iff_right overruns]
    cases found : firstOccurrence needle haystack with
    | none => exact iff_of_true sound_assertion fun p same => by cases same
    | some p =>
      refine ⟨fun sound q same => ?_, fun sound => sound p rfl⟩
      cases same
      exact sound

/-- A text in which the needle occurs is not left. -/
theorem not_overruns {p : Nat} (found : firstOccurrence needle haystack = some p) :
    ¬ Overruns needle haystack := fun overruns => by
  rw [overruns.absent] at found
  cases found

theorem firstOccurrence_fits {p : Nat} (found : firstOccurrence needle haystack = some p) :
    p + needle.length ≤ haystack.length := by
  obtain ⟨inside, occurs, -⟩ := firstOccurrence_eq_some_iff.mp found
  exact prefix_fits occurs inside

end Sound

theorem markers_nonempty : crlf ≠ [] ∧ sigTag ≠ [] ∧ responseHeaderName ≠ [] ∧
    pemMarkerBegin ≠ [] ∧ pemMarkerEnd ≠ [] := by decide +kernel

theorem length_pemMarkerEnd : pemMarkerEnd.length = 25 := by decide +kernel

/-! ## The signature -/

/-- The two searches stay in the header. -/
structure SignatureSearchable (header : List Byte) : Prop where
  tag : ¬ Overruns sigTag header
  line : ∀ p, firstOccurrence sigTag header = some p →
    ¬ Overruns crlf (header.drop (p + sigTag.length))

theorem parseResponseHeader_sound_iff (header : List Byte) (signatureMaxSize : Nat) :
    Sound (parseResponseHeader header signatureMaxSize) ↔ SignatureSearchable header := by
  obtain ⟨line, tag, -⟩ := markers_nonempty
  rw [parseResponseHeader, sound_search tag]
  refine ⟨fun sound => ⟨sound.1, fun p found => ?_⟩, fun fine => ⟨fine.tag, fun p found => ?_⟩⟩
  · exact ((sound_search line).mp (sound.2 p found)).1
  · refine (sound_search line).mpr ⟨fine.line p found, fun sigLen ends => ?_⟩
    -- the signature ends where the line ends
    have inside := firstOccurrence_fits ends
    rw [List.length_drop] at inside
    have start := firstOccurrence_fits found
    split
    · rw [readBytes, if_pos (by omega)]
      exact sound_ok _
    · exact sound_assertion

/-! ## The certificates -/

/-- The length of the first certificate as the code computes it. -/
def certLength (certBegin certEnd : Nat) : Int :=
  ((certEnd : Int) - certBegin + pemMarkerEnd.length) % 2 ^ 32

/-- The searches that are reached in a decoded text stay in it. -/
structure CertificatesSearchable (text : List Byte) : Prop where
  first : ¬ Overruns pemMarkerBegin text
  firstEnd : ∀ b, firstOccurrence pemMarkerBegin text = some b → ¬ Overruns pemMarkerEnd text
  second : ∀ b e, firstOccurrence pemMarkerBegin text = some b →
    firstOccurrence pemMarkerEnd text = some e → certLength b e ≤ reportFieldSize →
    ¬ Overruns pemMarkerBegin (text.drop e)
  secondEnd : ∀ b e next, firstOccurrence pemMarkerBegin text = some b →
    firstOccurrence pemMarkerEnd text = some e → certLength b e ≤ reportFieldSize →
    firstOccurrence pemMarkerBegin (text.drop e) = some next →
    ¬ Overruns pemMarkerEnd (text.drop (e + next))

/-- A certificate that is short enough to be copied lies in the text. -/
theorem sound_copyCertificate {α : Type} {text : List Byte} (small : text.length < 2 ^ 31)
    {certBegin certEnd : Nat} (begins : certBegin ≤ text.length)
    (ends : certEnd + pemMarkerEnd.length ≤ text.length) {next : List Byte → Except Fault α} :
    Sound (copyCertificate text certBegin certEnd >>= next) ↔
      (certLength certBegin certEnd ≤ reportFieldSize →
        Sound (next ((text.drop certBegin).take (certLength certBegin certEnd).toNat))) := by
  rw [copyCertificate]
  change Sound ((if certLength certBegin certEnd ≤ reportFieldSize then _ else _) >>= next) ↔ _
  by_cases short : certLength certBegin certEnd ≤ reportFieldSize
  · have inside : certBegin + (certLength certBegin certEnd).toNat ≤ text.length := by
      rw [length_pemMarkerEnd] at ends
      simp only [certLength, length_pemMarkerEnd, reportFieldSize] at short ⊢
      omega
    rw [if_pos short]
    change Sound (readBytes text certBegin (certLength certBegin certEnd).toNat >>= next) ↔ _
    rw [readBytes, if_pos inside]
    exact ⟨fun sound _ => sound, fun sound => sound short⟩
  · rw [if_neg short]
    exact iff_of_true sound_assertion fun short' => absurd short' short

theorem findCertificates_sound_iff {text : List Byte} (small : text.length < 2 ^ 31) :
    Sound (findCertificates text) ↔ CertificatesSearchable text := by
  obtain ⟨-, -, -, marker, markerEnd⟩ := markers_nonempty
  have searches : Sound (findCertificates text) ↔
      ¬ Overruns pemMarkerBegin text ∧ ∀ b, firstOccurrence pemMarkerBegin text = some b →
        ¬ Overruns pemMarkerEnd text ∧ ∀ e, firstOccurrence pemMarkerEnd text = some e →
          certLength b e ≤ reportFieldSize →
            ¬ Overruns pemMarkerBegin (text.drop e) ∧
            ∀ next, firstOccurrence pemMarkerBegin (text.drop e) = some next →
              ¬ Overruns pemMarkerEnd (text.drop (e + next)) := by
    rw [findCertificates, sound_search marker]
    refine and_congr_right fun _ => forall_congr' fun b => forall_congr' fun begins => ?_
    rw [sound_search markerEnd]
    refine and_congr_right fun _ => forall_congr' fun e => forall_congr' fun ends => ?_
    have inside := firstOccurrence_fits begins
    have insideEnd := firstOccurrence_fits ends
    rw [sound_copyCertificate small (by omega) insideEnd]
    refine forall_congr' fun short => ?_
    rw [sound_search marker]
    refine and_congr_right fun _ => forall_congr' fun next => forall_congr' fun begins' => ?_
    rw [sound_search markerEnd, and_iff_left_iff_imp]
    intro _ last ends'
    have insideNext := firstOccurrence_fits begins'
    have insideLast := firstOccurrence_fits ends'
    rw [List.length_drop] at insideNext insideLast
    exact (sound_copyCertificate small (by omega) (by omega)).mpr fun _ => sound_ok _
  rw [searches]
  constructor
  · rintro ⟨first, rest⟩
    exact ⟨first, fun b begins => (rest b begins).1,
      fun b e begins ends short => ((rest b begins).2 e ends short).1,
      fun b e next begins ends short => ((rest b begins).2 e ends short).2 next⟩
  · intro fine
    exact ⟨fine.first, fun b begins => ⟨fine.firstEnd b begins, fun e ends short =>
      ⟨fine.second b e begins ends short, fun next => fine.secondEnd b e next begins ends short⟩⟩⟩

/-- The block for the decoded text: the text, its terminator, and what the heap held behind. -/
def unescapedText (heap : Nat → Byte) (field : List Byte) : List Byte :=
  percentDecode field ++ [0] ++
    (bytesAt heap 0 field.length).drop ((percentDecode field).length + 1)

theorem length_unescapedText (heap : Nat → Byte) {field : List Byte} (escape : HasEscape field) :
    (unescapedText heap field).length = field.length := by
  have less := (length_percentDecode_lt field).mpr escape
  simp only [unescapedText, List.length_append, List.length_singleton, List.length_drop,
    length_bytesAt]
  omega

/-- With an escape in the field the terminator has room. -/
theorem unescape_eq (heap : Nat → Byte) (field behind : List Byte) :
    unescape (bytesAt heap 0 field.length) (field ++ (crlf ++ behind)) =
      if (percentDecode field).length < field.length then .ok (unescapedText heap field)
      else .error .undefined := by
  rw [unescape, myUrldecode, length_bytesAt, urldecodeLoop_field]
  change (if (percentDecode field ++ [0]).length ≤ field.length then
    (pure (percentDecode field ++ [0] ++
      (bytesAt heap 0 field.length).drop (percentDecode field ++ [0]).length) :
        Except Fault (List Byte)) else .error .undefined) = _
  rw [List.length_append, List.length_singleton]
  rfl

/-- The line with the certificates ends in the header and has an escape in it, and no search
    leaves its text. -/
structure CertificatesReadable (heap : Nat → Byte) (header : List Byte) : Prop where
  name : ¬ Overruns responseHeaderName header
  line : ∀ p, firstOccurrence responseHeaderName header = some p → ∃ field behind,
    header.drop (p + responseHeaderName.length) = field ++ (crlf ++ behind) ∧
    firstOccurrence crlf (field ++ (crlf ++ behind)) = some field.length ∧ HasEscape field ∧
    CertificatesSearchable (unescapedText heap field)

theorem split_at_crlf {rest : List Byte} {len : Nat} (ends : firstOccurrence crlf rest = some len) :
    ∃ field behind, rest = field ++ (crlf ++ behind) ∧ field.length = len := by
  obtain ⟨inside, ⟨behind, occurs⟩, -⟩ := firstOccurrence_eq_some_iff.mp ends
  refine ⟨rest.take len, behind, ?_, List.length_take_of_le inside⟩
  rw [occurs, List.take_append_drop]

theorem extractCertificates_sound_iff {heap : Nat → Byte} {header : List Byte}
    (small : header.length < 2 ^ 31) : Sound (extractCertificatesFromResponseHeader heap header) ↔
      CertificatesReadable heap header := by
  obtain ⟨line, -, name, -⟩ := markers_nonempty
  rw [extractCertificatesFromResponseHeader, sound_search name]
  refine Iff.trans (and_congr_right fun _ => forall_congr' fun p => forall_congr' fun _ => ?_)
    ⟨fun fine => ⟨fine.1, fine.2⟩, fun fine => ⟨fine.name, fine.line⟩⟩
  dsimp only
  by_cases overruns : Overruns crlf (header.drop (p + responseHeaderName.length))
  · rw [(myMemmem_spec line _).1 overruns]
    refine iff_of_false (fun sound => sound rfl) ?_
    rintro ⟨field, behind, same, ends, -⟩
    rw [same] at overruns
    exact not_overruns ends overruns
  · rw [(myMemmem_spec line _).2 overruns]
    cases ends : firstOccurrence crlf (header.drop (p + responseHeaderName.length)) with
    | none =>
      refine iff_of_false (fun sound => sound rfl) ?_
      rintro ⟨field, behind, same, ends', -⟩
      rw [same, ends'] at ends
      cases ends
    | some len =>
      obtain ⟨field, behind, same, rfl⟩ := split_at_crlf ends
      have short : field.length ≤ header.length := by
        have length := congrArg List.length same
        rw [List.length_drop, List.length_append] at length
        omega
      rw [same] at ends
      change Sound (unescape (bytesAt heap 0 field.length)
        (header.drop (p + responseHeaderName.length)) >>= findCertificates) ↔ _
      rw [same, unescape_eq]
      by_cases escape : HasEscape field
      · have size := length_unescapedText heap escape
        rw [if_pos ((length_percentDecode_lt field).mpr escape)]
        change Sound (findCertificates (unescapedText heap field)) ↔ _
        rw [findCertificates_sound_iff (by omega)]
        constructor
        · exact fun fine => ⟨field, behind, rfl, ends, escape, fine⟩
        · rintro ⟨field', behind', same', ends', -, fine⟩
          rw [same', ends'] at ends
          rw [(List.append_inj same' (Option.some.inj ends).symm).1]
          exact fine
      · rw [if_neg fun less => escape ((length_percentDecode_lt field).mp less)]
        refine iff_of_false (fun sound => sound rfl) ?_
        rintro ⟨field', behind', same', ends', escape', -⟩
        rw [same', ends'] at ends
        rw [(List.append_inj same' (Option.some.inj ends).symm).1] at escape
        exact escape escape'

/-! ## All of them -/

/-- A response header.  The caller has its length in an `int`. -/
structure Header where
  bytes : List Byte
  small : bytes.length < 2 ^ 31

/-- `my_urldecode` reads what can be read, and stores no more bytes than its text has. -/
theorem myUrldecode_fits_iff (field behind : List Byte) :
    (∃ written, myUrldecode (field ++ behind) field.length = .ok written ∧
      written.length ≤ field.length) ↔ (∀ i < field.length, ¬ Cut ((field ++ behind).drop i)) ∧
      ∃ i, i + 1 < field.length ∧ (escape? ((field ++ behind).drop i)).isSome = true := by
  have readable := urldecodeLoop_ok_iff field.length (field ++ behind)
  rw [and_iff_right (by rw [List.length_append]; omega)] at readable
  rw [← readable]
  constructor
  · rintro ⟨written, run, fits⟩
    obtain ⟨w, loop, same⟩ := Lib.bind_eq_ok run
    cases same
    rw [List.length_append, List.length_singleton] at fits
    exact ⟨⟨w, loop⟩, (urldecodeLoop_length _ _ loop).2.mp fits⟩
  · rintro ⟨⟨w, loop⟩, begins⟩
    have fits := (urldecodeLoop_length _ _ loop).2.mpr begins
    refine ⟨w ++ [0], ?_, ?_⟩
    · rw [myUrldecode, loop]
      rfl
    · rw [List.length_append, List.length_singleton]
      exact fits

theorem myUrldecode_encodedText (encoding : List PercentChar) (behind : List Byte) :
    myUrldecode (encodedText encoding ++ behind) (encodedText encoding).length =
      .ok (decodedText encoding ++ [0]) := by
  rw [myUrldecode, urldecodeLoop_encodedText]
  rfl

/-- When the scanners and the parsers of a response do what they are for: which searches find the
    first occurrence, that every percent-encoding is decoded, which texts are decoded into their
    own length, and which headers are parsed without an access outside a buffer. -/
theorem responseParsing_iff (haystack needle : List Byte) (encoding : List PercentChar)
    (field behind : List Byte) (header : Header) (signatureMaxSize : Nat) (heap : Nat → Byte) :
    (myMemmem haystack needle = .ok (firstOccurrence needle haystack) ↔
      needle ≠ [] ∧ ¬ Overruns needle haystack) ∧
    myUrldecode (encodedText encoding ++ behind) (encodedText encoding).length =
      .ok (decodedText encoding ++ [0]) ∧
    ((∃ written, myUrldecode (field ++ behind) field.length = .ok written ∧
        written.length ≤ field.length) ↔
      (∀ i < field.length, ¬ Cut ((field ++ behind).drop i)) ∧
        ∃ i, i + 1 < field.length ∧ (escape? ((field ++ behind).drop i)).isSome = true) ∧
    (Sound (parseResponseHeader header.bytes signatureMaxSize) ↔
      SignatureSearchable header.bytes) ∧
    (Sound (extractCertificatesFromResponseHeader heap header.bytes) ↔
      CertificatesReadable heap header.bytes) :=
  ⟨myMemmem_eq_iff haystack needle, myUrldecode_encodedText encoding behind,
    myUrldecode_fits_iff field behind, parseResponseHeader_sound_iff header.bytes signatureMaxSize,
    extractCertificates_sound_iff header.small⟩

/-- A header that ends in the middle of a line end, a text without escapes, and a header with
    such a text. -/
theorem responseParsing_overruns :
    myMemmem [97, 13] crlf = .error .undefined ∧
    (¬ ∃ written, myUrldecode [97] 1 = .ok written ∧ written.length ≤ 1) ∧
    ¬ Sound (parseResponseHeader (sigTag ++ [97, 13]) 2048) ∧
    ¬ Sound (extractCertificatesFromResponseHeader (fun _ => 0)
      (responseHeaderName ++ ([97] ++ crlf))) := by
  have overruns : Overruns crlf [97, 13] :=
    ⟨by decide, by decide, by decide, 1, by decide, by decide, by decide⟩
  obtain ⟨line, -⟩ := markers_nonempty
  refine ⟨(myMemmem_spec line _).1 overruns, fun fits => ?_, fun sound => ?_, fun sound => ?_⟩
  · obtain ⟨i, before, -⟩ := ((myUrldecode_fits_iff [97] []).mp fits).2
    exact absurd before (by simp)
  · have found : firstOccurrence sigTag (sigTag ++ [97, 13]) = some 0 ∧
        (sigTag ++ [97, 13]).drop (0 + sigTag.length) = [97, 13] := by decide +kernel
    have fine := ((parseResponseHeader_sound_iff _ _).mp sound).line 0 found.1
    rw [found.2] at fine
    exact fine overruns
  · have found : firstOccurrence responseHeaderName (responseHeaderName ++ ([97] ++ crlf)) = some 0 ∧
        (responseHeaderName ++ ([97] ++ crlf)).drop (0 + responseHeaderName.length) = 97 :: crlf ∧
        (responseHeaderName ++ ([97] ++ crlf)).length < 2 ^ 31 ∧
        firstOccurrence crlf (97 :: crlf) = some 1 := by decide +kernel
    obtain ⟨start, rest, small, ends⟩ := found
    obtain ⟨field, behind, same, ends', ⟨i, escape⟩, -⟩ :=
      ((extractCertificates_sound_iff small).mp sound).line 0 start
    rw [← same, rest, ends] at ends'
    -- one byte is too short for an escape
    obtain ⟨v, escape⟩ := Option.isSome_iff_exists.mp escape
    obtain ⟨a, b, more, drop, -⟩ := escape?_eq_some escape
    have length := congrArg List.length drop
    rw [List.length_drop, ← Option.some.inj ends', List.length_cons, List.length_cons] at length
    omega

end SandboxTEE.Attestation
