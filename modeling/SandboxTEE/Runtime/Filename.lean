import SandboxTEE.Lib.Fields
import SandboxTEE.Lib.LexPath
import SandboxTEE.Runtime.App
import SandboxTEE.Stdlib.Cstring

/-! # Mounted host paths (`sel_ldr_filename.c`, `nacl_copy.c`)

With a mounted root directory, a path of the untrusted module is prefixed with the root
before the host sees it.  The C port has the check for `..` commented out, so the host
path stays at or below the root exactly for the user paths whose lexical normal form
re-enters what it climbs past (`copyHostPathInFromUser_below_iff`).
-/

namespace SandboxTEE.Runtime

open SandboxTEE.Lib (Step resolve resolve_append resolve_map_down relative prefix_resolve_iff fields
  fields_append_sep fields_of_not_mem fields_sep_cons)
open SandboxTEE.Stdlib

def naClConfigPathMax : Nat := 1024

def slash : Byte := 47
def dot : Byte := 46

/-! ## The root directory -/

/-- A name between slashes that lexical normalisation keeps. -/
structure NormalName (name : List Byte) : Prop where
  nonempty : name ≠ []
  noSlash : slash ∉ name
  noNul : (0 : Byte) ∉ name
  notDot : name ≠ [dot]
  notDotDot : name ≠ [dot, dot]

/-- The absolute path with these names. -/
def pathOf (names : List (List Byte)) : List Byte := names.flatMap fun name => slash :: name

/-- `NaClRootDir`, as `NaClMountRootDir` accepts it: a canonical path from `realpath`, not
    `/` itself, shorter than `NACL_CONFIG_PATH_MAX`. -/
structure RootDir where
  names : List (List Byte)
  nonempty : names ≠ []
  normal : ∀ name ∈ names, NormalName name
  short : (pathOf names).length < naClConfigPathMax

/-- The string `NaClRootDir`; its length is `NaClRootDirLen`. -/
def RootDir.path (root : RootDir) : List Byte := pathOf root.names

/-! ## The source's functions -/

/-- The flag and the buffer after `NaClCopyInFromUserZStr`. -/
def naClCopyInFromUserZStr (nap : AddressSpace) (mem : Memory) (dst : List Byte)
    (dstBufferBytes srcUsrAddr : Nat) : Option (Bool × List Byte) :=
  if dstBufferBytes > 0 then
    match naClUserToSysAddr nap srcUsrAddr with
    | none => some (false, dst.set 0 0)
    | some srcSysAddr =>
      let dst := strncpy mem srcSysAddr dstBufferBytes
      if dst[dstBufferBytes - 1]? ≠ some 0 then some (false, dst.set (dstBufferBytes - 1) 0)
      else some (true, dst)
  else none

def pathContainsRootPrefix (root : RootDir) (path : List Byte) : Bool :=
  if path.length < root.path.length then false
  else if path.take root.path.length ≠ root.path then false
  else if path.length > root.path.length ∧ path[root.path.length]? ≠ some slash then false
  else true

/-- The result and the buffer: the prefix, the virtual path and the terminator are written
    over its beginning. -/
def virtualToAbsolutePath (root : RootDir) (virtualPath absolutePath : List Byte)
    (absolutePathMaxSize : Nat) : BitVec 32 × List Byte :=
  if virtualPath.length + root.path.length + 1 > absolutePathMaxSize then
    (negErrno naClAbiENAMETOOLONG, absolutePath)
  else
    (0, root.path ++ virtualPath ++
      0 :: absolutePath.drop (virtualPath.length + root.path.length + 1))

/-- The tests for `..` and for a symbolic link are commented out in the source. -/
def validateAbsolutePath (root : RootDir) (path : List Byte) : Option (BitVec 32) :=
  if pathContainsRootPrefix root path then some 0 else none

def copyHostPathMounted (root : RootDir) (dest : List Byte) (destMaxSize : Nat) :
    Option (BitVec 32 × List Byte) :=
  if destMaxSize = 0 ∨ dest.head? = some 0 then some (negErrno naClAbiENOENT, dest)
  else if dest.head? ≠ some slash then some (negErrno naClAbiEACCES, dest)
  else if destMaxSize = naClConfigPathMax ∧ strlen dest < naClConfigPathMax then
    let rawPath := cstr dest
    let (retval, dest) := virtualToAbsolutePath root rawPath dest destMaxSize
    if retval ≠ 0 then some (retval, dest)
    else (validateAbsolutePath root (cstr dest)).map fun retval => (retval, dest)
  else none

/-- `none` is a failed `CHECK`. -/
def copyHostPathInFromUser (nap : AddressSpace) (rootDir : Option RootDir) (mem : Memory)
    (dest : List Byte) (destMaxSize src : Nat) : Option (BitVec 32 × List Byte) := do
  let (copied, dest) ← naClCopyInFromUserZStr nap mem dest destMaxSize src
  if copied = false then
    if dest.head? = some 0 then some (negErrno naClAbiEFAULT, dest)
    else some (negErrno naClAbiENAMETOOLONG, dest)
  else
    match rootDir with
    | none => some (0, dest)
    | some root => copyHostPathMounted root dest destMaxSize

/-! ## Lexical normalisation -/

def nameStep (name : List Byte) : Step (List Byte) :=
  if name = [] ∨ name = [dot] then .stay
  else if name = [dot, dot] then .up
  else .down name

/-- The steps of a path; repeated slashes and `.` stay, `..` goes up. -/
def pathSteps (path : List Byte) : List (Step (List Byte)) := (fields slash path).map nameStep

/-- The absolute path `path`, normalised, is the root or lies strictly below it. -/
def RootDir.Contains (root : RootDir) (path : List Byte) : Prop :=
  root.names <+: resolve [] (pathSteps path)

instance (root : RootDir) (path : List Byte) : Decidable (root.Contains path) :=
  inferInstanceAs (Decidable (_ <+: _))

theorem nameStep_normal {name : List Byte} (normal : NormalName name) :
    nameStep name = .down name := by
  rw [nameStep, if_neg (not_or.mpr ⟨normal.nonempty, normal.notDot⟩), if_neg normal.notDotDot]

theorem fields_pathOf : ∀ {names : List (List Byte)}, names ≠ [] →
    (∀ name ∈ names, slash ∉ name) → fields slash (pathOf names) = [] :: names
  | [], ne, _ => absurd rfl ne
  | [name], _, noSlash => by
    have h := noSlash name List.mem_cons_self
    rw [pathOf, List.flatMap_cons, List.flatMap_nil, List.append_nil, fields_sep_cons,
      fields_of_not_mem h]
  | name :: next :: names, _, noSlash => by
    have h := noSlash name List.mem_cons_self
    have ih := @fields_pathOf (next :: names) (by simp)
      fun n hn => noSlash n (List.mem_cons_of_mem name hn)
    have tail : pathOf (next :: names) = slash :: (next ++ pathOf names) := rfl
    rw [tail, fields_sep_cons, List.cons.injEq] at ih
    have whole : pathOf (name :: next :: names) =
        slash :: (name ++ slash :: (next ++ pathOf names)) := rfl
    rw [whole, fields_sep_cons, fields_append_sep, fields_of_not_mem h, ih.2]
    rfl

/-- Walking the host path is walking the user path from the root. -/
theorem resolve_hostPath (root : RootDir) (rest : List Byte) :
    resolve [] (pathSteps (root.path ++ slash :: rest)) =
      resolve root.names (pathSteps (slash :: rest)) := by
  have names : root.names.map nameStep = root.names.map Step.down :=
    List.map_congr_left fun name hn => nameStep_normal (root.normal name hn)
  have stay : nameStep [] = .stay := rfl
  rw [pathSteps, fields_append_sep, RootDir.path,
    fields_pathOf root.nonempty fun name hn => (root.normal name hn).noSlash, List.map_append,
    List.map_cons, names, stay, resolve_append, pathSteps, fields_sep_cons, List.map_cons, stay]
  have walked : resolve [] (Step.stay :: root.names.map Step.down) = root.names := by
    change resolve [] (root.names.map Step.down) = _
    rw [resolve_map_down, List.nil_append]
  rw [walked]
  rfl

/-! ## What a successful copy leaves in the buffer -/

theorem noNul_path (root : RootDir) : (0 : Byte) ∉ root.path := by
  intro mem
  obtain ⟨name, hn, mem⟩ := List.mem_flatMap.mp mem
  rcases List.mem_cons.mp mem with zero | mem
  · exact absurd zero (by decide)
  · exact (root.normal name hn).noNul mem

theorem negErrno_ne_zero_of_lt {e : Nat} (pos : 0 < e) (lt : e < 2 ^ 32) : negErrno e ≠ 0 := by
  intro zero
  have := congrArg BitVec.toNat zero
  rw [negErrno, BitVec.toNat_neg, BitVec.toNat_ofNat] at this
  simp only [BitVec.ofNat_eq_ofNat, BitVec.toNat_ofNat] at this
  omega

variable {mem : Memory} {src : Nat} {nap : AddressSpace}

/-- A copied path is the whole user path, and it fits. -/
theorem naClCopyInFromUserZStr_copied {dst dst' path : List Byte} {n : Nat}
    (holds : HoldsString mem (src + nap.memStart) path)
    (copied : naClCopyInFromUserZStr nap mem dst n src = some (true, dst')) :
    path.length < n ∧ dst' = path ++ 0 :: List.replicate (n - path.length - 1) 0 := by
  unfold naClCopyInFromUserZStr at copied
  split at copied
  · next pos =>
    split at copied
    · simp at copied
    · next address translated =>
      have address_eq : address = src + nap.memStart := by
        unfold naClUserToSysAddr at translated
        split at translated
        · cases translated
        · exact (Option.some.inj translated).symm
      subst address_eq
      rcases Nat.lt_or_ge path.length n with fits | long
      · rw [strncpy_fits holds fits] at copied
        simp only [ne_eq, ite_not] at copied
        split at copied
        · simp only [Option.some.injEq, Prod.mk.injEq, true_and] at copied
          refine ⟨fits, ?_⟩
          rw [← copied, ← List.replicate_succ]
          congr 2
          omega
        · simp at copied
      · -- the string fills the buffer, so its last byte is not NUL
        exfalso
        rw [strncpy_long holds long] at copied
        have last : (path.take n)[n - 1]? ≠ some 0 := by
          intro zero
          exact holds.not_mem (List.mem_of_mem_take (List.mem_of_getElem? zero))
        simp [last] at copied
  · cases copied

/-- On success the user path is absolute, and the buffer holds it behind the root. -/
theorem copyHostPathInFromUser_success {root : RootDir} {dest dest' path : List Byte}
    {destMaxSize : Nat} (holds : HoldsString mem (src + nap.memStart) path)
    (ok : copyHostPathInFromUser nap (some root) mem dest destMaxSize src = some (0, dest')) :
    (∃ rest, path = slash :: rest) ∧ cstr dest' = root.path ++ path ∧
      (cstr dest').length < destMaxSize ∧ dest'.length = destMaxSize := by
  unfold copyHostPathInFromUser at ok
  simp only [Option.bind_eq_bind] at ok
  obtain ⟨⟨copied, raw⟩, run, ok⟩ := Option.bind_eq_some_iff.mp ok
  simp only at ok
  split at ok
  · -- the two errors of the copy are not success
    split at ok
    · simp only [Option.some.injEq, Prod.mk.injEq] at ok
      exact absurd ok.1 (negErrno_ne_zero_of_lt (by decide) (by decide))
    · simp only [Option.some.injEq, Prod.mk.injEq] at ok
      exact absurd ok.1 (negErrno_ne_zero_of_lt (by decide) (by decide))
  next copiedTrue =>
  rw [Bool.not_eq_false] at copiedTrue
  subst copiedTrue
  obtain ⟨fits, raw_eq⟩ := naClCopyInFromUserZStr_copied holds run
  have raw_cstr : cstr raw = path := by
    rw [raw_eq]
    exact cstr_append holds.not_mem
  have raw_length : raw.length = destMaxSize := by
    rw [raw_eq]
    simp only [List.length_append, List.length_cons, List.length_replicate]
    omega
  unfold copyHostPathMounted at ok
  split at ok
  · simp only [Option.some.injEq, Prod.mk.injEq] at ok
    exact absurd ok.1 (negErrno_ne_zero_of_lt (by decide) (by decide))
  split at ok
  · simp only [Option.some.injEq, Prod.mk.injEq] at ok
    exact absurd ok.1 (negErrno_ne_zero_of_lt (by decide) (by decide))
  next absolute =>
  have path_absolute : ∃ rest, path = slash :: rest := by
    rw [raw_eq] at absolute
    cases path with
    | nil =>
      next notEmpty =>
      rw [raw_eq] at notEmpty
      exact absurd (Or.inr rfl) notEmpty
    | cons b rest =>
      simp only [List.cons_append, List.head?_cons, ne_eq, Option.some.injEq, not_not] at absolute
      exact ⟨rest, by rw [absolute]⟩
  split at ok
  · unfold virtualToAbsolutePath at ok
    rw [raw_cstr] at ok
    by_cases long : path.length + root.path.length + 1 > destMaxSize
    · simp only [if_pos long] at ok
      split at ok
      · simp only [Option.some.injEq, Prod.mk.injEq] at ok
        exact absurd ok.1 (negErrno_ne_zero_of_lt (by decide) (by decide))
      · next zero =>
        exact absurd (not_not.mp zero) (negErrno_ne_zero_of_lt (by decide) (by decide))
    · simp only [if_neg long, ne_eq, not_true_eq_false, if_false, Option.map_eq_some_iff,
        Prod.mk.injEq] at ok
      obtain ⟨_, _, _, dest_eq⟩ := ok
      have host : cstr dest' = root.path ++ path := by
        rw [← dest_eq]
        refine cstr_append fun mem => ?_
        rcases List.mem_append.mp mem with mem | mem
        · exact noNul_path root mem
        · exact holds.not_mem mem
      refine ⟨path_absolute, host, ?_, ?_⟩
      · rw [host, List.length_append]
        omega
      · rw [← dest_eq]
        simp only [List.length_append, List.length_cons, List.length_drop, raw_length]
        omega
  · cases ok

/-! ## The sandbox -/

/-- A host path produced with a mounted root always fits with its terminator.  It is the root
    or below it exactly when the user path, in lexical normal form, descends again by the
    names of the root it climbs past. -/
theorem copyHostPathInFromUser_below_iff {nap : AddressSpace} {root : RootDir} {mem : Memory}
    {dest dest' path : List Byte} {destMaxSize src : Nat}
    (holds : HoldsString mem (src + nap.memStart) path)
    (ok : copyHostPathInFromUser nap (some root) mem dest destMaxSize src = some (0, dest')) :
    (root.Contains (cstr dest') ∧ (cstr dest').length < destMaxSize ∧
        dest'.length = destMaxSize) ↔
      root.names.drop (root.names.length - (relative (pathSteps path)).ups) <+:
        (relative (pathSteps path)).downs := by
  obtain ⟨⟨rest, rfl⟩, host, fits, length⟩ := copyHostPathInFromUser_success holds ok
  have below : root.Contains (cstr dest') ↔
      root.names.drop (root.names.length - (relative (pathSteps (slash :: rest))).ups) <+:
        (relative (pathSteps (slash :: rest))).downs := by
    rw [RootDir.Contains, host, resolve_hostPath, prefix_resolve_iff]
  constructor
  · intro h
    exact below.mp h.1
  · intro h
    exact ⟨below.mpr h, fits, length⟩

/-- The mounted root `/r`. -/
def rootR : RootDir where
  names := [[114]]
  nonempty := by decide
  normal := fun name hn => by
    rw [List.mem_singleton] at hn
    subst hn
    exact ⟨by decide, by decide, by decide, by decide, by decide⟩
  short := by decide

/-- A 4 GiB sandbox at 4 GiB. -/
def sandbox32 : AddressSpace := ⟨32, 2 ^ 32, fourGigabytes_inSpace⟩

/-- Memory that holds `s` at address `base`, and NULs elsewhere. -/
def memoryAt (base : Nat) (s : List Byte) : Memory := fun a =>
  if base ≤ a then s.getD (a - base) 0 else 0

/-- `/a/../x` stays below `/r`. -/
theorem copyHostPathInFromUser_below_iff_inside :
    let dest' := [47, 114, 47, 97, 47, 46, 46, 47, 120] ++ List.replicate 1015 0
    (rootR.Contains (cstr dest') ∧ (cstr dest').length < 1024 ∧ dest'.length = 1024) ↔
      rootR.names.drop
          (rootR.names.length - (relative (pathSteps [47, 97, 47, 46, 46, 47, 120])).ups) <+:
        (relative (pathSteps [47, 97, 47, 46, 46, 47, 120])).downs :=
  @copyHostPathInFromUser_below_iff sandbox32 rootR
    (memoryAt (2 ^ 32 + 65536) [47, 97, 47, 46, 46, 47, 120]) (List.replicate 1024 0)
    ([47, 114, 47, 97, 47, 46, 46, 47, 120] ++ List.replicate 1015 0)
    [47, 97, 47, 46, 46, 47, 120] 1024 65536
    (by simp [HoldsString, memoryAt, sandbox32]) (by decide +kernel)

/-- `/../x` is copied in successfully and names `/x` on the host, outside of `/r`. -/
theorem copyHostPathInFromUser_escapes :
    ∃ (mem : Memory) (dest dest' path : List Byte),
      HoldsString mem (65536 + sandbox32.memStart) path ∧
      copyHostPathInFromUser sandbox32 (some rootR) mem dest 1024 65536 = some (0, dest') ∧
      ¬ rootR.Contains (cstr dest') := by
  refine ⟨memoryAt (2 ^ 32 + 65536) [47, 46, 46, 47, 120], List.replicate 1024 0,
    [47, 114, 47, 46, 46, 47, 120] ++ List.replicate 1017 0, [47, 46, 46, 47, 120], ?_, ?_, ?_⟩
  · simp [HoldsString, memoryAt, sandbox32]
  · decide +kernel
  · decide +kernel

end SandboxTEE.Runtime
