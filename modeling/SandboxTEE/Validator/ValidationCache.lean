import SandboxTEE.Lib.LittleEndian
import SandboxTEE.Lib.Run
import SandboxTEE.Validator.StubOut

/-! # The validation cache (`validation_cache.c`, `dfa_validate_64.c`, `sel_validate_image.c`)

`ApplyDfaValidator_x86_64` asks the cache before it validates, and tells it what has validated
without being changed.  The cache knows the bytes of the queries it was told about, in the order
`AddData` was given them.  Every query it knows is of code that is acceptable as it stands
(`Knows`), whatever the flags and the text mode were, so a hit is what validation would have
said (`validationCache_transparent`).

What the DFA accepts depends on the CPU features.
-/

namespace SandboxTEE.Validator

open Lib

/-! ## Code and its identity -/

/-- The bytes at a pointer; their number is a `size_t`. -/
structure Block where
  bytes : List (BitVec 8)
  fits : bytes.length < 2 ^ 64

def Block.size (b : Block) : Nat := b.bytes.length

def Block.code (b : Block) (i : Nat) : BitVec 8 := b.bytes.getD i 0

inductive NaClCodeIdentityType where
  | data
  | file
deriving DecidableEq

structure NaClValidationMetadata where
  identityType : NaClCodeIdentityType
  codeOffset : BitVec 64
  fileName : Block
  deviceId : BitVec 64
  fileId : BitVec 64
  fileSize : BitVec 64
  mtime : BitVec 64
  ctime : BitVec 64

/-- `NaClAddCodeIdentity`: the bytes given to `AddData`; `none` is a failed `CHECK`. -/
def naClAddCodeIdentity (data : Block) (metadata : Option NaClValidationMetadata) :
    Option (List (BitVec 8)) :=
  match metadata with
  | none => some (leBytes 4 0 ++ data.bytes)
  | some m =>
    match m.identityType with
    | .data => some (leBytes 4 0 ++ data.bytes)
    | .file =>
      if m.fileName.size = 0 then none
      else if (m.codeOffset + BitVec.ofNat 64 data.size).sle m.fileSize then
        some (leBytes 4 1 ++ (leBytes64 m.codeOffset ++ (leBytes 8 data.size ++
          (leBytes 8 m.fileName.size ++ (m.fileName.bytes ++ (leBytes64 m.deviceId ++
          (leBytes64 m.fileId ++ (leBytes64 m.fileSize ++ (leBytes64 m.mtime ++
          leBytes64 m.ctime)))))))))
      else none

/-! ## The cache -/

structure NaClValidationCache where
  /-- `CachingIsInexpensive`, which may be null. -/
  cachingIsInexpensive : Option (Option NaClValidationMetadata → Bool)
  /-- The queries marked known to validate. -/
  known : List (List (BitVec 8))

def naClCachingIsInexpensive (cache : NaClValidationCache)
    (metadata : Option NaClValidationMetadata) : Bool :=
  match cache.cachingIsInexpensive with
  | some inexpensive => inexpensive metadata
  | none => metadata.any fun m => m.identityType = .file

def NaClValidationCache.queryKnownToValidate (cache : NaClValidationCache)
    (query : List (BitVec 8)) : Bool := cache.known.contains query

def NaClValidationCache.setKnownToValidate (cache : NaClValidationCache)
    (query : List (BitVec 8)) : NaClValidationCache :=
  { cache with known := query :: cache.known }

/-! ## Validation -/

inductive NaClValidationStatus where
  | succeeded
  | failed
  | failedOutOfMemory
  | failedNotImplemented
  | failedCpuNotSupported
  | failedSegmentationIssue
deriving DecidableEq

def naClCPUFeatureX86Max : Nat := 39

structure NaClCPUFeaturesX86 where
  data : List (BitVec 8)
  length_data : data.length = naClCPUFeatureX86Max

/-- The features `CPUIDSupported` and `CPUSupported`. -/
def naClArchSupportedX86 (f : NaClCPUFeaturesX86) : Bool :=
  f.data.getD 0 0 != 0 && f.data.getD 1 0 != 0

/-- What a call depends on besides its arguments: whether the bitmaps can be allocated, whether
    `CreateQuery` returns a query. -/
structure Environment where
  allocated : Bool
  queryCreated : Bool

/-- The arguments of `ApplyDfaValidator_x86_64` but the cache. -/
structure Arguments where
  data : Block
  stuboutMode : Bool
  flags : BitVec 32
  readonlyText : Bool
  features : NaClCPUFeaturesX86
  metadata : Option NaClValidationMetadata

/-- `"x86-64 dfa"` with its NUL. -/
def validatorId : List (BitVec 8) :=
  [0x78, 0x38, 0x36, 0x2d, 0x36, 0x34, 0x20, 0x64, 0x66, 0x61, 0x00]

/-- The text at the start of a call. -/
def Block.text (b : Block) : Text := ⟨b.code, false⟩

section Apply

variable (dfa : NaClCPUFeaturesX86 → Dfa) (env : Environment)

/-- The data of the query, if there is one; the outer `none` is a failed `CHECK`. -/
def Arguments.query (a : Arguments) (cache : Option NaClValidationCache) :
    Option (Option (List (BitVec 8))) :=
  match cache with
  | none => some none
  | some cache =>
    if naClCachingIsInexpensive cache a.metadata && env.queryCreated then
      (naClAddCodeIdentity a.data a.metadata).map fun identity =>
        some (validatorId ++ (a.features.data ++ identity))
    else some none

/-- The call of `ValidateChunkAMD64`: its result and the text it leaves. -/
def Arguments.validateChunk (a : Arguments) : Option (Bool × Text) :=
  if a.readonlyText then
    (validateChunkAMD64 naClDfaProcessValidationError (dfa a.features) env.allocated a.data.code
      a.data.size 0).map fun result => (result, a.data.text)
  else
    validateText (naClDfaStubOutUnsupportedInstruction (dfa a.features) a.flags) a.data.text
      (dfa a.features) a.data.size 0 env.allocated

/-- `ENOMEM` is set where the bitmaps cannot be allocated, else a failure sets `EINVAL`. -/
def Arguments.status (a : Arguments) (result : Bool) : NaClValidationStatus :=
  if result then .succeeded
  else if ¬ a.data.size + 1 ≤ naclHostWordsize ∧ env.allocated = false then .failedOutOfMemory
  else .failed

/-- `ApplyDfaValidator_x86_64`: the status, the text and the cache behind the call; `none` is a
    failed `CHECK`. -/
def applyDfaValidator_x86_64 (a : Arguments) (cache : Option NaClValidationCache) :
    Option (NaClValidationStatus × Text × Option NaClValidationCache) :=
  if a.stuboutMode then some (.failedNotImplemented, a.data.text, cache)
  else if ¬ naClArchSupportedX86 a.features then
    some (.failedCpuNotSupported, a.data.text, cache)
  else if a.data.size &&& kBundleMask ≠ 0 then some (.failed, a.data.text, cache)
  else do
    let query ← a.query env cache
    if query.any fun q => cache.any fun c => c.queryKnownToValidate q then
      some (.succeeded, a.data.text, cache)
    else
      let (result, text) ← a.validateChunk dfa env
      let status := a.status env result
      match query with
      | some q =>
        if status = .succeeded ∧ text.didRewrite = false then
          some (status, text, cache.map fun c => c.setKnownToValidate q)
        else some (status, text, cache)
      | none => some (status, text, cache)

end Apply

/-! ## `NaClValidateCode` -/

def kMinimumCachedCodeSize : Nat := 40000

/-- The fields of `struct NaClApp` that `NaClValidateCode` reads. -/
structure NaClApp where
  pnaclMode : Bool
  validatorStubOutMode : Bool
  cpuFeatures : NaClCPUFeaturesX86
  validationCache : Option NaClValidationCache

inductive NaClErrorCode where
  | loadOk
  | loadBadFile
  | loadValidationFailed
deriving DecidableEq

def naClValidateStatus : NaClValidationStatus → NaClErrorCode
  | .succeeded => .loadOk
  | .failedOutOfMemory => .loadBadFile
  | _ => .loadValidationFailed

/-- `NaClValidateCode`: the error code, the code and the application behind the call.  In stub
    out mode there are two passes, without the cache; this validator fails the first one. -/
def naClValidateCode (dfa : NaClCPUFeaturesX86 → Dfa) (env : Environment) (nap : NaClApp)
    (data : Block) (metadata : Option NaClValidationMetadata) :
    Option (NaClErrorCode × Text × NaClApp) :=
  let small := data.size < kMinimumCachedCodeSize
  let metadata := if small ∨ nap.validatorStubOutMode then none else metadata
  let cache := if small ∨ nap.validatorStubOutMode then none else nap.validationCache
  let flags := if nap.pnaclMode then naclDisableNontemporalsX86 else 0
  let first := if nap.validatorStubOutMode then
      applyDfaValidator_x86_64 dfa env ⟨data, true, flags, false, nap.cpuFeatures, metadata⟩ cache
    else some (.succeeded, data.text, cache)
  first.bind fun (status, text, cache) =>
    if status = .succeeded then
      (applyDfaValidator_x86_64 dfa env ⟨data, false, flags, false, nap.cpuFeatures, metadata⟩
        cache).map fun (status, text, cache) =>
          (naClValidateStatus status, text,
            { nap with validationCache := cache.or nap.validationCache })
    else some (naClValidateStatus status, text, nap)

/-! ## Identities -/

/-- What `NaClMetadataFromFDCtor` records of a file. -/
structure FileIdentity where
  name : List (BitVec 8)
  deviceId : BitVec 64
  fileId : BitVec 64
  fileSize : BitVec 64
  mtime : BitVec 64
  ctime : BitVec 64

def NaClValidationMetadata.file (m : NaClValidationMetadata) : FileIdentity :=
  ⟨m.fileName.bytes, m.deviceId, m.fileId, m.fileSize, m.mtime, m.ctime⟩

/-- What code is said to be: these bytes, or a part of a file. -/
inductive CodeIdentity where
  | data (bytes : List (BitVec 8))
  | file (codeOffset : BitVec 64) (size : Nat) (origin : FileIdentity)

def codeIdentity (data : Block) (metadata : Option NaClValidationMetadata) : CodeIdentity :=
  match metadata with
  | none => .data data.bytes
  | some m =>
    match m.identityType with
    | .data => .data data.bytes
    | .file => .file m.codeOffset data.size m.file

/-- The bytes of an identity, without the checks. -/
def CodeIdentity.bytes : CodeIdentity → List (BitVec 8)
  | .data bytes => leBytes 4 0 ++ bytes
  | .file codeOffset size origin =>
    leBytes 4 1 ++ (leBytes64 codeOffset ++ (leBytes 8 size ++ (leBytes 8 origin.name.length ++
      (origin.name ++ (leBytes64 origin.deviceId ++ (leBytes64 origin.fileId ++
      (leBytes64 origin.fileSize ++ (leBytes64 origin.mtime ++ leBytes64 origin.ctime))))))))

/-- Lengths are `size_t` numbers. -/
def CodeIdentity.Fits : CodeIdentity → Prop
  | .data _ => True
  | .file _ size origin => size < 2 ^ 64 ∧ origin.name.length < 2 ^ 64

theorem codeIdentity_fits (data : Block) (metadata : Option NaClValidationMetadata) :
    (codeIdentity data metadata).Fits := by
  unfold codeIdentity
  cases metadata with
  | none => trivial
  | some m =>
    dsimp only
    cases m.identityType with
    | data => trivial
    | file => exact ⟨data.fits, m.fileName.fits⟩

variable {data : Block} {metadata : Option NaClValidationMetadata}

variable {identity : List (BitVec 8)}

theorem naClAddCodeIdentity_eq (added : naClAddCodeIdentity data metadata = some identity) :
    identity = (codeIdentity data metadata).bytes := by
  unfold naClAddCodeIdentity at added
  unfold codeIdentity
  cases metadata with
  | none => exact (Option.some.inj added).symm
  | some m =>
    dsimp only at added ⊢
    cases kind : m.identityType with
    | data =>
      rw [kind] at added
      exact (Option.some.inj added).symm
    | file =>
      rw [kind] at added
      dsimp only at added
      split_ifs at added
      exact (Option.some.inj added).symm

/-- The type comes first, and what has no fixed length has its length in front or is last. -/
theorem CodeIdentity.bytes_inj {a b : CodeIdentity} (fits : a.Fits) (fits' : b.Fits)
    (same : a.bytes = b.bytes) : a = b := by
  cases a with
  | data bytes =>
    cases b with
    | data bytes' => rw [List.append_cancel_left same]
    | file codeOffset' size' origin' =>
      exact absurd (leBytes_append_inj (by decide) (by decide) same).1 (by decide)
  | file codeOffset size origin =>
    cases b with
    | data bytes' => exact absurd (leBytes_append_inj (by decide) (by decide) same).1 (by decide)
    | file codeOffset' size' origin' =>
      obtain ⟨name, deviceId, fileId, fileSize, mtime, ctime⟩ := origin
      obtain ⟨name', deviceId', fileId', fileSize', mtime', ctime'⟩ := origin'
      obtain ⟨rfl, sizes⟩ := leBytes64_append_inj (List.append_cancel_left same)
      obtain ⟨rfl, lengths⟩ := leBytes_append_inj fits.1 fits'.1 sizes
      obtain ⟨length, names⟩ := leBytes_append_inj fits.2 fits'.2 lengths
      obtain ⟨rfl, devices⟩ := List.append_inj names length
      obtain ⟨rfl, ids⟩ := leBytes64_append_inj devices
      obtain ⟨rfl, fileSizes⟩ := leBytes64_append_inj ids
      obtain ⟨rfl, mtimes⟩ := leBytes64_append_inj fileSizes
      obtain ⟨rfl, ctimes⟩ := leBytes64_append_inj mtimes
      obtain rfl := leBytes64_inj ctimes
      rfl

variable {data' : Block} {metadata' : Option NaClValidationMetadata}

theorem naClAddCodeIdentity_inj (added : naClAddCodeIdentity data metadata = some identity)
    (added' : naClAddCodeIdentity data' metadata' = some identity) :
    codeIdentity data metadata = codeIdentity data' metadata' := by
  apply CodeIdentity.bytes_inj (codeIdentity_fits ..) (codeIdentity_fits ..)
  rw [← naClAddCodeIdentity_eq added, ← naClAddCodeIdentity_eq added']

/-- The code is what its file holds at its offset; the contents of a file are a function of
    what is recorded of it. -/
def Determined (contents : FileIdentity → Nat → BitVec 8) (data : Block)
    (metadata : Option NaClValidationMetadata) : Prop :=
  ∀ m ∈ metadata, m.identityType = .file →
    ∀ i < data.size, data.code i = contents m.file (m.codeOffset.toNat + i)

theorem Block.ext_code {b b' : Block} (size : b.size = b'.size)
    (code : ∀ i < b.size, b.code i = b'.code i) : b = b' := by
  obtain ⟨bytes, fits⟩ := b
  obtain ⟨bytes', fits'⟩ := b'
  rw [Block.mk.injEq]
  apply List.ext_getElem size
  intro i h h'
  have same := code i h
  simpa [Block.code, List.getD_eq_getElem?_getD, h, h'] using same

theorem codeIdentity_data {bytes : List (BitVec 8)}
    (same : codeIdentity data metadata = .data bytes) : data.bytes = bytes := by
  unfold codeIdentity at same
  cases metadata with
  | none => exact CodeIdentity.data.inj same
  | some m =>
    dsimp only at same
    cases kind : m.identityType with
    | data =>
      rw [kind] at same
      exact CodeIdentity.data.inj same
    | file =>
      rw [kind] at same
      cases same

theorem codeIdentity_file {codeOffset : BitVec 64} {size : Nat} {origin : FileIdentity}
    (same : codeIdentity data metadata = .file codeOffset size origin) :
    ∃ m, metadata = some m ∧ m.identityType = .file ∧ m.codeOffset = codeOffset ∧
      data.size = size ∧ m.file = origin := by
  unfold codeIdentity at same
  cases metadata with
  | none => cases same
  | some m =>
    dsimp only at same
    cases kind : m.identityType with
    | data =>
      rw [kind] at same
      cases same
    | file =>
      rw [kind] at same
      obtain ⟨offset, length, file⟩ := CodeIdentity.file.inj same
      exact ⟨m, rfl, kind, offset, length, file⟩

theorem Determined.unique {contents : FileIdentity → Nat → BitVec 8}
    (determined : Determined contents data metadata)
    (determined' : Determined contents data' metadata')
    (same : codeIdentity data metadata = codeIdentity data' metadata') : data = data' := by
  have ofBytes : ∀ {b b' : Block}, b.bytes = b'.bytes → b = b' := by
    intro b b' same
    obtain ⟨bytes, fits⟩ := b
    cases same
    rfl
  cases hm : codeIdentity data metadata with
  | data bytes =>
    have here := codeIdentity_data hm
    rw [same] at hm
    exact ofBytes (here.trans (codeIdentity_data hm).symm)
  | file codeOffset size origin =>
    obtain ⟨m, rfl, kind, rfl, rfl, rfl⟩ := codeIdentity_file hm
    rw [same] at hm
    obtain ⟨m', rfl, kind', offset, length, file⟩ := codeIdentity_file hm
    apply Block.ext_code length.symm
    intro i hi
    rw [determined m rfl kind i hi, determined' m' rfl kind' i (length ▸ hi), offset, file]

/-! ## What the cache knows -/

section Transparent

variable {dfa : NaClCPUFeaturesX86 → Dfa} {contents : FileIdentity → Nat → BitVec 8}

/-- Every query the cache knows is one of acceptable code. -/
def Knows (dfa : NaClCPUFeaturesX86 → Dfa) (contents : FileIdentity → Nat → BitVec 8)
    (cache : NaClValidationCache) : Prop :=
  ∀ query ∈ cache.known, ∃ features data metadata identity,
    naClAddCodeIdentity data metadata = some identity ∧
      query = validatorId ++ (features.data ++ identity) ∧
      Determined contents data metadata ∧ ChunkAccepted (dfa features) data.code data.size

/-- The cache answers the query of a call. -/
def Arguments.fromCache (a : Arguments) (env : Environment) (cache : NaClValidationCache) : Prop :=
  a.stuboutMode = false ∧ naClArchSupportedX86 a.features = true ∧
    a.data.size &&& kBundleMask = 0 ∧
    ∃ query, a.query env (some cache) = some (some query) ∧ query ∈ cache.known

variable {a : Arguments} {env : Environment}

theorem Arguments.query_eq {cache : Option NaClValidationCache} {query : List (BitVec 8)}
    (asked : a.query env cache = some (some query)) :
    ∃ identity, naClAddCodeIdentity a.data a.metadata = some identity ∧
      query = validatorId ++ (a.features.data ++ identity) := by
  unfold Arguments.query at asked
  cases cache with
  | none => cases asked
  | some cache =>
    dsimp only at asked
    split_ifs at asked
    · obtain ⟨identity, added, same⟩ := Option.map_eq_some_iff.mp asked
      exact ⟨identity, added, (Option.some.inj same).symm⟩
    · cases asked

variable {cache' : Option NaClValidationCache}

/-- The code of a query the cache knows is acceptable. -/
theorem Knows.accepted {cache : NaClValidationCache} (knows : Knows dfa contents cache)
    (determined : Determined contents a.data a.metadata) {query : List (BitVec 8)}
    (asked : a.query env cache' = some (some query)) (known : query ∈ cache.known) :
    ChunkAccepted (dfa a.features) a.data.code a.data.size := by
  obtain ⟨identity, added, rfl⟩ := Arguments.query_eq asked
  obtain ⟨features, data, metadata, identity', added', same, determined', accepted⟩ :=
    knows _ known
  obtain ⟨featuresData, rfl⟩ := List.append_inj (List.append_cancel_left same)
    (a.features.length_data.trans features.length_data.symm)
  obtain rfl : a.features = features := by
    cases features
    cases ha : a.features
    rw [ha] at featuresData
    cases featuresData
    rfl
  rw [determined.unique determined' (naClAddCodeIdentity_inj added added')]
  exact accepted

theorem Arguments.status_succeeded {result : Bool} :
    a.status env result = .succeeded ↔ result = true := by
  unfold Arguments.status
  cases result with
  | true => simp
  | false =>
    simp only [Bool.false_eq_true, if_false, iff_false]
    split <;> decide

variable {text : Text}

theorem applyDfaValidator_x86_64_cache {cache : Option NaClValidationCache}
    {status : NaClValidationStatus}
    (run : applyDfaValidator_x86_64 dfa env a cache = some (status, text, cache')) :
    cache' = cache ∨ ∃ query, a.query env cache = some (some query) ∧
      a.validateChunk dfa env = some (true, text) ∧ text.didRewrite = false ∧
      cache' = cache.map fun c => c.setKnownToValidate query := by
  unfold applyDfaValidator_x86_64 at run
  split at run
  · cases run
    exact Or.inl rfl
  split at run
  · cases run
    exact Or.inl rfl
  split at run
  · cases run
    exact Or.inl rfl
  obtain ⟨query, asked, run⟩ := Option.bind_eq_some_iff.mp run
  split_ifs at run
  · cases run
    exact Or.inl rfl
  obtain ⟨⟨result, text'⟩, validated, run⟩ := Option.bind_eq_some_iff.mp run
  cases query with
  | none =>
    cases run
    exact Or.inl rfl
  | some query =>
    dsimp only at run
    split_ifs at run with success
    · cases run
      have ok : result = true := Arguments.status_succeeded.mp success.1
      rw [ok] at validated
      exact Or.inr ⟨query, asked, validated, success.2, rfl⟩
    · cases run
      exact Or.inl rfl

variable (ofBytes : ∀ features, (dfa features).OfBytes)

include ofBytes

/-- Code that has validated without a rewrite, in either mode, is acceptable. -/
theorem Arguments.validateChunk_accepted (validated : a.validateChunk dfa env = some (true, text))
    (unset : text.didRewrite = false) : ChunkAccepted (dfa a.features) a.data.code a.data.size := by
  unfold Arguments.validateChunk at validated
  split at validated
  · obtain ⟨result, accepted, same⟩ := Option.map_eq_some_iff.mp validated
    cases same
    exact validateChunkAMD64_accepted (fun _ _ _ => rfl) (by decide) (by decide) accepted
  · exact (validateText_acceptable (ofBytes a.features) validated unset).2

theorem Knows.applyDfaValidator {cache : NaClValidationCache} {status : NaClValidationStatus}
    (knows : Knows dfa contents cache) (determined : Determined contents a.data a.metadata)
    (run : applyDfaValidator_x86_64 dfa env a (some cache) = some (status, text, cache')) :
    ∃ c, cache' = some c ∧ Knows dfa contents c := by
  rcases applyDfaValidator_x86_64_cache run with rfl | ⟨query, asked, validated, unset, rfl⟩
  · exact ⟨cache, rfl, knows⟩
  · refine ⟨_, rfl, List.forall_mem_cons.mpr ⟨?_, knows⟩⟩
    obtain ⟨identity, added, same⟩ := Arguments.query_eq asked
    exact ⟨_, _, _, _, added, same, determined,
      Arguments.validateChunk_accepted ofBytes validated unset⟩

end Transparent

/-! ## Histories -/

/-- A call of a history: of `NaClValidateCode`, by an application in any mode, or of the
    validator itself. -/
inductive Call where
  | validateCode (env : Environment) (pnaclMode validatorStubOutMode : Bool)
      (features : NaClCPUFeaturesX86) (data : Block) (metadata : Option NaClValidationMetadata)
  | validate (env : Environment) (arguments : Arguments)

/-- A call with the cache all calls share. -/
def Call.run (dfa : NaClCPUFeaturesX86 → Dfa) (cache : NaClValidationCache) :
    Call → Option NaClValidationCache
  | .validateCode env pnaclMode validatorStubOutMode features data metadata =>
    (naClValidateCode dfa env ⟨pnaclMode, validatorStubOutMode, features, some cache⟩ data
      metadata).bind fun (_, _, nap) => nap.validationCache
  | .validate env arguments =>
    (applyDfaValidator_x86_64 dfa env arguments (some cache)).bind fun (_, _, cache) => cache

/-- The code of the call is what its metadata says. -/
def Call.Determined (contents : FileIdentity → Nat → BitVec 8) : Call → Prop
  | .validateCode _ _ _ _ data metadata => Validator.Determined contents data metadata
  | .validate _ a => Validator.Determined contents a.data a.metadata

section Transparent

variable {dfa : NaClCPUFeaturesX86 → Dfa} {contents : FileIdentity → Nat → BitVec 8}

variable {cache : NaClValidationCache}

theorem Knows.validateCode (ofBytes : ∀ features, (dfa features).OfBytes) {env : Environment}
    {nap nap' : NaClApp} {code : NaClErrorCode} {text : Text}
    (shared : nap.validationCache = some cache) (knows : Knows dfa contents cache)
    (determined : Validator.Determined contents data metadata)
    (run : naClValidateCode dfa env nap data metadata = some (code, text, nap')) :
    ∃ c, nap'.validationCache = some c ∧ Knows dfa contents c := by
  have uncached : ∀ {a : Arguments} {outcome},
      applyDfaValidator_x86_64 dfa env a none = some outcome → outcome.2.2 = none := by
    rintro a ⟨status, text, cache'⟩ ran
    rcases applyDfaValidator_x86_64_cache ran with same | ⟨query, _, _, _, same⟩
    · exact same
    · exact same
  unfold naClValidateCode at run
  dsimp only at run
  by_cases without : data.size < kMinimumCachedCodeSize ∨ nap.validatorStubOutMode = true
  · simp only [if_pos without] at run
    -- neither pass sees the cache
    obtain ⟨⟨status, text', cache'⟩, first, run⟩ := Option.bind_eq_some_iff.mp run
    obtain rfl : cache' = none := by
      split at first
      · exact uncached first
      · cases first
        rfl
    dsimp only at run
    split at run
    · obtain ⟨outcome, second, same⟩ := Option.map_eq_some_iff.mp run
      have none := uncached second
      cases same
      dsimp only
      rw [none, Option.none_or, shared]
      exact ⟨cache, rfl, knows⟩
    · cases run
      exact ⟨cache, shared, knows⟩
  · simp only [if_neg without] at run
    rw [not_or] at without
    rw [if_neg without.2, Option.bind_some] at run
    dsimp only at run
    rw [if_pos rfl, shared] at run
    obtain ⟨⟨status, text', cache'⟩, second, same⟩ := Option.map_eq_some_iff.mp run
    obtain ⟨c, rfl, knows'⟩ := knows.applyDfaValidator ofBytes determined second
    cases same
    exact ⟨c, rfl, knows'⟩

theorem Knows.call (ofBytes : ∀ features, (dfa features).OfBytes) {cache' : NaClValidationCache}
    {call : Call} (knows : Knows dfa contents cache) (determined : call.Determined contents)
    (run : call.run dfa cache = some cache') : Knows dfa contents cache' := by
  cases call with
  | validateCode env pnaclMode validatorStubOutMode features data metadata =>
    obtain ⟨⟨code, text, nap⟩, ran, after⟩ := Option.bind_eq_some_iff.mp run
    obtain ⟨c, same, knows'⟩ := knows.validateCode ofBytes rfl determined ran
    cases same.symm.trans after
    exact knows'
  | validate env a =>
    obtain ⟨⟨status, text, cache''⟩, ran, after⟩ := Option.bind_eq_some_iff.mp run
    obtain ⟨c, same, knows'⟩ := knows.applyDfaValidator ofBytes determined ran
    cases same.symm.trans after
    exact knows'

/-- The cache of every history knows acceptable code only. -/
theorem Knows.of_run (ofBytes : ∀ features, (dfa features).OfBytes)
    {inexpensive : Option (Option NaClValidationMetadata → Bool)} {calls : List Call}
    (determined : ∀ call ∈ calls, call.Determined contents)
    (ran : calls.foldlM (Call.run dfa) ⟨inexpensive, []⟩ = some cache) :
    Knows dfa contents cache := by
  apply @foldlM_invariant _ _ _ (Knows dfa contents) (fun _ call => call.Determined contents)
    (fun _ _ _ knows determined run => knows.call ofBytes determined run) calls _ _
    (fun _ mem => by cases mem) _ ran
  intro pre call within _ _
  exact determined call (within.subset (List.mem_append_right _ List.mem_cons_self))

/-- Acceptable code validates, in either mode, when its bitmaps can be allocated. -/
theorem ChunkAccepted.validateChunk {env : Environment} {a : Arguments}
    (accepted : ChunkAccepted (dfa a.features) a.data.code a.data.size)
    (allocated : env.allocated = true) : a.validateChunk dfa env = some (true, a.data.text) := by
  unfold Arguments.validateChunk
  split
  · rw [accepted.validateChunkAMD64 (Or.inr allocated)]
    rfl
  · exact accepted.validateText rfl _ (Or.inr allocated)

/-- For every history of calls, what the cache answers is what validation says, and the code
    would not be changed.  The bytes of an identity say which one it is. -/
theorem validationCache_transparent (ofBytes : ∀ features, (dfa features).OfBytes)
    {inexpensive : Option (Option NaClValidationMetadata → Bool)} {calls : List Call}
    (determined : ∀ call ∈ calls, call.Determined contents) {cache : NaClValidationCache}
    (ran : calls.foldlM (Call.run dfa) ⟨inexpensive, []⟩ = some cache) :
    (∀ (env : Environment) (a : Arguments), Validator.Determined contents a.data a.metadata →
      a.fromCache env cache →
        applyDfaValidator_x86_64 dfa env a (some cache) =
            some (.succeeded, a.data.text, some cache) ∧
          ∀ env' : Environment, env'.allocated = true →
            applyDfaValidator_x86_64 dfa env' a none = some (.succeeded, a.data.text, none)) ∧
      ∀ (data data' : Block) (metadata metadata' : Option NaClValidationMetadata)
        (identity : List (BitVec 8)), naClAddCodeIdentity data metadata = some identity →
          naClAddCodeIdentity data' metadata' = some identity →
            codeIdentity data metadata = codeIdentity data' metadata' := by
  refine ⟨?_, fun _ _ _ _ _ => naClAddCodeIdentity_inj⟩
  intro env a same hit
  obtain ⟨notStubout, supported, aligned, query, asked, known⟩ := hit
  have accepted := (Knows.of_run ofBytes determined ran).accepted same asked known
  constructor
  · have answered : (some query).any (fun q => (some cache).any fun c =>
        c.queryKnownToValidate q) = true := List.contains_iff_mem.mpr known
    unfold applyDfaValidator_x86_64
    rw [if_neg (by simp [notStubout]), if_neg (not_not.mpr supported),
      if_neg (not_not.mpr aligned), asked]
    exact if_pos answered
  · intro env' allocated
    unfold applyDfaValidator_x86_64
    rw [if_neg (by simp [notStubout]), if_neg (not_not.mpr supported),
      if_neg (not_not.mpr aligned)]
    have noQuery : a.query env' none = some none := rfl
    simp only [noQuery, Option.bind_eq_bind, Option.bind_some, Option.any_none, Bool.false_eq_true,
      if_false, accepted.validateChunk allocated]
    rfl

end Transparent

/-! ## A hit -/

/-- A decoder that knows `NOP` only. -/
def nopDfa : Dfa := fun code start stop =>
  if ∀ i < stop - start, code (start + i) = nopOpcode then
    .accept (List.replicate (stop - start) (.single ⟨1, Nat.zero_lt_one, [.process0Operands]⟩))
      (by simp [Piece.length, Piece.instructions, totalLength])
  else .error [] [] 0 (nothing_within start stop)

theorem nopDfa_ofBytes : nopDfa.OfBytes := by
  intro code code' start start' n same
  have alike : (∀ i < n, code (start + i) = nopOpcode) ↔ ∀ i < n, code' (start' + i) = nopOpcode :=
    forall₂_congr fun i hi => by rw [same i hi]
  simp only [nopDfa, Parse.outline, Nat.add_sub_cancel_left, alike]
  by_cases nops : ∀ i < n, code' (start' + i) = nopOpcode
  · rw [if_pos nops, if_pos nops]
  · rw [if_neg nops, if_neg nops]

/-- A bundle of `NOP`s in a file. -/
def nopArguments (flags : BitVec 32) (readonlyText : Bool) : Arguments where
  data := ⟨List.replicate 32 nopOpcode, by decide⟩
  stuboutMode := false
  flags := flags
  readonlyText := readonlyText
  features := ⟨List.replicate naClCPUFeatureX86Max 1, by decide⟩
  metadata := some ⟨.file, 0, ⟨[0x61], by decide⟩, 0, 0, 32, 0, 0⟩

def nopQuery : List (BitVec 8) :=
  validatorId ++ (List.replicate naClCPUFeatureX86Max 1 ++ (leBytes 4 1 ++ (leBytes64 0 ++
    (leBytes 8 32 ++ (leBytes 8 1 ++ ([0x61] ++ (leBytes64 0 ++ (leBytes64 0 ++ (leBytes64 32 ++
    (leBytes64 0 ++ leBytes64 0))))))))))

theorem code_replicate {n i : Nat} {byte : BitVec 8} {fits} (inside : i < n) :
    Block.code ⟨List.replicate n byte, fits⟩ i = byte := by
  rw [Block.code, List.getD_eq_getElem?_getD, List.getElem?_replicate, if_pos inside]
  rfl

/-- What has validated read-only is answered for a text that may be changed. -/
theorem validationCache_transparent_nops :
    applyDfaValidator_x86_64 (fun _ => nopDfa) ⟨true, true⟩ (nopArguments 1 false) none =
      some (.succeeded, (nopArguments 1 false).data.text, none) := by
  have determined : ∀ flags readonlyText, Determined (fun _ _ => nopOpcode)
      (nopArguments flags readonlyText).data (nopArguments flags readonlyText).metadata := by
    intro flags readonlyText m mem _ i hi
    exact code_replicate hi
  have ran : ([Call.validate ⟨true, true⟩ (nopArguments 0 true)].foldlM
      (Call.run fun _ => nopDfa) ⟨none, []⟩).map
        (fun c => (c.cachingIsInexpensive.isNone, c.known)) = some (true, [nopQuery]) := by
    decide +kernel
  obtain ⟨cache, ran, same⟩ := Option.map_eq_some_iff.mp ran
  obtain ⟨inexpensive, known⟩ := cache
  obtain ⟨none, rfl⟩ := Prod.mk.inj same
  rw [Option.isNone_iff_eq_none] at none
  obtain rfl := none
  have faithful : ∀ call ∈ [Call.validate ⟨true, true⟩ (nopArguments 0 true)],
      call.Determined fun _ _ => nopOpcode := List.forall_mem_singleton.mpr (determined 0 true)
  obtain ⟨hits, _⟩ := validationCache_transparent (fun _ => nopDfa_ofBytes) faithful ran
  refine (hits ⟨true, true⟩ (nopArguments 1 false) (determined 1 false) ⟨rfl, rfl, rfl, nopQuery, ?_,
    List.mem_cons_self⟩).2 ⟨true, true⟩ rfl
  decide +kernel

end SandboxTEE.Validator
