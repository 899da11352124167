import SandboxTEE.HostDesc.Model
import SandboxTEE.Lib.TwoPart
import SandboxTEE.Xcall.Framework

/-! # Futex time-outs that go to the host (`sys_futex.c`, the part for Linux)

With `NACL_SGX` the wait is an ocall.  The relative time is made one number inside the enclave
(`NaClSysFutexWaitAbs`) and a `struct timespec` again outside (`sgx_ocall_futex`).  The number is to
be one of microseconds, but the nanoseconds are multiplied by a thousand on the way in: the host
gets the right time only when that is a whole number of seconds (`naClSysFutexWaitAbs_reaches_iff`).
-/

namespace SandboxTEE.Futex.Linux

open SandboxTEE.HostDesc (naClXlateErrno)
open SandboxTEE.Lib
open SandboxTEE.Runtime
open SandboxTEE.Xcall

/-- `struct nacl_abi_timespec`, and `struct timespec` -/
structure Timespec where
  tvSec : Int
  tvNsec : Int

def Timespec.parts (t : Timespec) : TwoPart := ⟨t.tvSec, t.tvNsec⟩

def nanosPerSec : Int := 1000000000

/-- The time in nanoseconds. -/
def Timespec.nanos (t : Timespec) : Int := t.parts.value nanosPerSec

def Timespec.Normalised (t : Timespec) : Prop := t.parts.Normal nanosPerSec

/-- The seconds are a signed number of 64 bits. -/
def Timespec.InRange (t : Timespec) : Prop := -2 ^ 63 ≤ t.tvSec ∧ t.tvSec < 2 ^ 63

instance (t : Timespec) : Decidable t.InRange :=
  inferInstanceAs (Decidable (-2 ^ 63 ≤ t.tvSec ∧ t.tvSec < 2 ^ 63))

instance (t : Timespec) : Decidable t.Normalised :=
  inferInstanceAs (Decidable (0 ≤ t.tvNsec ∧ t.tvNsec < nanosPerSec))

/-- The value of a `long`. -/
def long (x : Int) : Int := Int.bmod x (2 ^ 64)

/-- The value of a `uint64_t`. -/
def uint64 (x : Int) : Nat := (x % 2 ^ 64).toNat

def absTimeToRelTime (abstime now : Timespec) : Timespec :=
  let tvSec := long (abstime.tvSec - now.tvSec)
  let tvNsec := abstime.tvNsec - now.tvNsec
  if tvNsec < 0 then ⟨long (tvSec - 1), tvNsec + 1000000000⟩ else ⟨tvSec, tvNsec⟩

/-! ## The two sides of the ocall -/

def ocallNoTimeout : Nat := 2 ^ 64 - 1

/-- The fields of `ms_ocall_futex_t` that the host reads. -/
structure MsOcallFutex where
  msFutex : Nat
  msOp : Nat
  msVal : BitVec 32
  msTimeout : Nat

/-- What `SYS_futex` is called with. -/
structure FutexCall where
  futex : Nat
  op : Nat
  val : BitVec 32
  timeout : Option Timespec

def sgxOcallFutex (ms : MsOcallFutex) : FutexCall :=
  { futex := ms.msFutex
    op := ms.msOp
    val := ms.msVal
    timeout :=
      if ms.msTimeout ≠ ocallNoTimeout then
        let tvSec := ms.msTimeout / 1000000
        some ⟨tvSec, ((ms.msTimeout - tvSec * 1000000) * 1000 : Nat)⟩
      else none }

/-- What the host answers, and `errno` behind the call. -/
structure FutexHost where
  futex : FutexCall → Int
  errno : Nat

/-- The return value, and the calls made to the host. -/
def ocallFutex (e : Enclave) (host : FutexHost) (futex op : Nat) (val : BitVec 32)
    (timeout : Option Nat) : Int × List FutexCall :=
  if sgxIsCompletelyWithinEnclave e futex 4 then (-1, [])
  else
    let call := sgxOcallFutex ⟨futex, op, val, timeout.getD ocallNoTimeout⟩
    (host.futex call, [call])

/-! ## The system call -/

def naClAbiETIMEDOUT : Nat := 110

def futexWait : Nat := 0
def futexPrivateFlag : Nat := 128

/-- What the call reads: the sandbox, its memory, the clock.  `copyIn` is `none` for an address that
    cannot be read. -/
structure WaitInput where
  nap : AddressSpace
  copyIn : Nat → Option Timespec
  clock : Except Int Timespec

/-- `none` where the process is stopped. -/
abbrev WaitResult := Option Int × List FutexCall

/-- The last part, behind the conversion of the time. -/
def futexWaitOnHost (e : Enclave) (host : FutexHost) (sysaddr : Nat) (value : BitVec 32)
    (timeout : Option Nat) : WaitResult :=
  let (failed, calls) := ocallFutex e host sysaddr (futexWait ||| futexPrivateFlag) value timeout
  if failed ≠ 0 then
    if host.errno = naClAbiEFAULT then (none, calls)
    else (some (-(naClXlateErrno host.errno)), calls)
  else (some 0, calls)

def naClSysFutexWaitAbs (e : Enclave) (host : FutexHost) (input : WaitInput) (addr : Nat)
    (value : BitVec 32) (abstimePtr : Nat) : WaitResult :=
  match naClUserToSysAddrRange input.nap addr 4 with
  | none => (some (-naClAbiEFAULT), [])
  | some sysaddr =>
    if abstimePtr ≠ 0 then
      match input.copyIn abstimePtr with
      | none => (some (-naClAbiEFAULT), [])
      | some abstime =>
        match input.clock with
        | .error result => (some result, [])
        | .ok now =>
          let hostRelTimeout := absTimeToRelTime abstime now
          if hostRelTimeout.tvSec < 0 then (some (-naClAbiETIMEDOUT), [])
          else futexWaitOnHost e host sysaddr value
            (some (uint64 (hostRelTimeout.tvSec * 1000000 + hostRelTimeout.tvNsec * 1000)))
    else futexWaitOnHost e host sysaddr value none

/-! ## The relative time -/

theorem long_sub (x y : Int) : long (long x - y) = long (x - y) := by
  simp [long]

/-- The relative time is the difference with a borrow, up to the width of its seconds. -/
theorem absTimeToRelTime_eq (abstime now : Timespec) : absTimeToRelTime abstime now =
      ⟨long (TwoPart.sub nanosPerSec abstime.parts now.parts).hi,
        (TwoPart.sub nanosPerSec abstime.parts now.parts).lo⟩ := by
  by_cases borrow : abstime.tvNsec - now.tvNsec < 0
  · simp [absTimeToRelTime, TwoPart.sub, Timespec.parts, nanosPerSec, borrow, long_sub]
  · simp [absTimeToRelTime, TwoPart.sub, Timespec.parts, borrow]

theorem long_emod (x : Int) : long x % 2 ^ 64 = x % 2 ^ 64 := by
  have := @Int.bmod_emod x (2 ^ 64)
  exact_mod_cast this

theorem uint64_long (x y : Int) : uint64 (long x * 1000000 + y) = uint64 (x * 1000000 + y) := by
  have same : (long x * 1000000 + y) % 2 ^ 64 = (x * 1000000 + y) % 2 ^ 64 := by
    rw [Int.add_emod, Int.mul_emod, long_emod, ← Int.mul_emod, ← Int.add_emod]
  rw [uint64, same, uint64]

theorem long_neg_iff {x : Int} (nonneg : 0 ≤ x) (lt : x < 2 ^ 64) : long x < 0 ↔ 2 ^ 63 ≤ x := by
  rw [long, Int.bmod_def, Int.emod_eq_of_lt nonneg (by exact_mod_cast lt)]
  split <;> omega

/-! ## The time on the host -/

/-- The host gets the number as normal parts, in nanoseconds a thousand times as much. -/
theorem sgxOcallFutex_timeout {ms : MsOcallFutex} (some_timeout : ms.msTimeout ≠ ocallNoTimeout) :
    ∃ ts, (sgxOcallFutex ms).timeout = some ts ∧ ts.Normalised ∧ ts.nanos = 1000 * ms.msTimeout := by
  refine ⟨_, if_pos some_timeout, ?_, ?_⟩
  · simp only [Timespec.Normalised, TwoPart.Normal, Timespec.parts, nanosPerSec]
    omega
  · simp only [Timespec.nanos, TwoPart.value, Timespec.parts, nanosPerSec]
    omega

/-- No time is mistaken for the absence of one: the number is a multiple of eight. -/
theorem uint64_ne_ocallNoTimeout (sec nsec : Int) :
    uint64 (sec * 1000000 + nsec * 1000) ≠ ocallNoTimeout := by
  intro same
  have eight : (sec * 1000000 + nsec * 1000) % 2 ^ 64 % 8 = 0 := by
    rw [Int.emod_emod_of_dvd _ (by decide)]
    omega
  have nonneg : 0 ≤ (sec * 1000000 + nsec * 1000) % 2 ^ 64 := Int.emod_nonneg _ (by decide)
  rw [uint64, ocallNoTimeout] at same
  generalize (sec * 1000000 + nsec * 1000) % 2 ^ 64 = x at *
  omega

/-- Of the numbers that the enclave hands out, those for whole seconds that do not wrap are a
    thousandth of the time in nanoseconds. -/
theorem rounded_iff {sec nsec : Int} (nonneg : 0 ≤ sec) (normal : 0 ≤ nsec ∧ nsec < 1000000000) :
    RoundedTo 1000 (sec * 1000000000 + nsec) (1000 * (uint64 (sec * 1000000 + nsec * 1000) : Nat)) ↔
      nsec = 0 ∧ sec * 1000000 < 2 ^ 64 := by
  have pos : 0 ≤ (sec * 1000000 + nsec * 1000) % 2 ^ 64 := Int.emod_nonneg _ (by decide)
  have wraps := Int.mul_ediv_add_emod (sec * 1000000 + nsec * 1000) (2 ^ 64)
  rw [uint64, Int.toNat_of_nonneg pos, RoundedTo]
  constructor
  · rintro ⟨-, above, below⟩
    have quotient : 0 ≤ (sec * 1000000 + nsec * 1000) / 2 ^ 64 :=
      Int.ediv_nonneg (by omega) (by decide)
    generalize (sec * 1000000 + nsec * 1000) / 2 ^ 64 = k at *
    have lt := Int.emod_lt_of_pos (sec * 1000000 + nsec * 1000) (show (0 : Int) < 2 ^ 64 by decide)
    generalize (sec * 1000000 + nsec * 1000) % 2 ^ 64 = r at *
    -- one wrap takes away more than the multiplied nanoseconds add
    have once : k = 0 := by omega
    subst once
    omega
  · rintro ⟨rfl, lt⟩
    rw [zero_mul, add_zero, Int.emod_eq_of_lt (by omega) lt]
    exact ⟨⟨_, rfl⟩, by omega, by omega⟩

/-! ## What reaches the host -/

section Wait

variable {e : Enclave} {host : FutexHost} {sysaddr : Nat} {value : BitVec 32}

/-- A futex word inside the enclave is not a matter for the host. -/
theorem futexWaitOnHost_calls (timeout : Option Nat) :
    (futexWaitOnHost e host sysaddr value timeout).2 =
      if sgxIsCompletelyWithinEnclave e sysaddr 4 then []
      else [sgxOcallFutex ⟨sysaddr, futexWait ||| futexPrivateFlag, value,
        timeout.getD ocallNoTimeout⟩] := by
  unfold futexWaitOnHost ocallFutex
  by_cases within : sgxIsCompletelyWithinEnclave e sysaddr 4
  · simp only [within, if_true]
    split_ifs <;> rfl
  · simp only [if_neg within]
    split_ifs <;> rfl

/-- The time that the one call to the host has. -/
def HostWaits (calls : List FutexCall) (ok : Option Timespec → Prop) : Prop :=
  ∃ call, calls = [call] ∧ ok call.timeout

theorem hostWaits_iff {timeout : Option Nat} {ok : Option Timespec → Prop} :
    HostWaits (futexWaitOnHost e host sysaddr value timeout).2 ok ↔
      sgxIsCompletelyWithinEnclave e sysaddr 4 = false ∧
        ok (sgxOcallFutex ⟨sysaddr, futexWait ||| futexPrivateFlag, value,
          timeout.getD ocallNoTimeout⟩).timeout := by
  rw [futexWaitOnHost_calls, HostWaits]
  cases sgxIsCompletelyWithinEnclave e sysaddr 4 <;> simp

/-- The time from `now` to `abstime`, to the microsecond. -/
def IsRelative (abstime now : Timespec) (timeout : Option Timespec) : Prop :=
  ∃ ts, timeout = some ts ∧ ts.Normalised ∧ RoundedTo 1000 (abstime.nanos - now.nanos) ts.nanos

/-- The call with the two parts of the relative time. -/
theorem hostWaits_relative_iff {sec nsec : Int} (nonneg : 0 ≤ sec)
    (normal : 0 ≤ nsec ∧ nsec < 1000000000) {abstime now : Timespec}
    (relative : abstime.nanos - now.nanos = sec * 1000000000 + nsec) :
    HostWaits (futexWaitOnHost e host sysaddr value
        (some (uint64 (sec * 1000000 + nsec * 1000)))).2 (IsRelative abstime now) ↔
      sgxIsCompletelyWithinEnclave e sysaddr 4 = false ∧ nsec = 0 ∧ sec * 1000000 < 2 ^ 64 := by
  rw [hostWaits_iff, ← rounded_iff nonneg normal, ← relative]
  obtain ⟨ts, timeout, normalised, nanos⟩ := @sgxOcallFutex_timeout
    ⟨sysaddr, futexWait ||| futexPrivateFlag, value, uint64 (sec * 1000000 + nsec * 1000)⟩
    (uint64_ne_ocallNoTimeout sec nsec)
  refine and_congr_right fun _ => ?_
  rw [Option.getD_some, timeout]
  constructor
  · rintro ⟨ts', same, -, rounded⟩
    cases same
    exact nanos ▸ rounded
  · exact fun rounded => ⟨ts, rfl, normalised, nanos.symm ▸ rounded⟩

end Wait

/-- Of a wait with a timeout the host gets the time from now on, as a normalised `timespec` rounded
    to a microsecond, exactly when the futex word is outside of the enclave and that time is a whole
    number of seconds whose microseconds do not wrap.  Of a wait without timeout it gets none,
    when it gets the wait. -/
theorem naClSysFutexWaitAbs_reaches_iff (e : Enclave) (host : FutexHost) {input : WaitInput}
    {addr sysaddr : Nat} (value : BitVec 32)
    (translated : naClUserToSysAddrRange input.nap addr 4 = some sysaddr)
    {abstimePtr : Nat} (timed : abstimePtr ≠ 0) {abstime now : Timespec}
    (read : input.copyIn abstimePtr = some abstime) (clock : input.clock = .ok now)
    (normal : abstime.Normalised ∧ now.Normalised) (range : abstime.InRange ∧ now.InRange)
    (later : now.nanos ≤ abstime.nanos) :
    (HostWaits (naClSysFutexWaitAbs e host input addr value abstimePtr).2 (IsRelative abstime now) ↔
      sgxIsCompletelyWithinEnclave e sysaddr 4 = false ∧
        ∃ sec, abstime.nanos - now.nanos = sec * nanosPerSec ∧ sec * 1000000 < 2 ^ 64) ∧
    (HostWaits (naClSysFutexWaitAbs e host input addr value 0).2 (· = none) ↔
      sgxIsCompletelyWithinEnclave e sysaddr 4 = false) := by
  constructor
  · -- the relative time in two parts
    have value_d := @TwoPart.value_sub nanosPerSec abstime.parts now.parts
    have normal_d := normal.1.sub normal.2
    have nonneg := normal_d.hi_nonneg_iff.mpr
      (by rw [value_d]; exact Int.sub_nonneg_of_le later)
    have lt : (TwoPart.sub nanosPerSec abstime.parts now.parts).hi < 2 ^ 64 := by
      have h₁ := range.1
      have h₂ := range.2
      unfold Timespec.InRange at h₁ h₂
      unfold TwoPart.sub Timespec.parts
      split <;> simp only <;> omega
    have reads : naClSysFutexWaitAbs e host input addr value abstimePtr =
        if (absTimeToRelTime abstime now).tvSec < 0 then (some (-(naClAbiETIMEDOUT : Int)), [])
        else futexWaitOnHost e host sysaddr value (some (uint64
          ((absTimeToRelTime abstime now).tvSec * 1000000 +
            (absTimeToRelTime abstime now).tvNsec * 1000))) := by
      simp only [naClSysFutexWaitAbs, translated, if_pos timed, read, clock]
    rw [reads, absTimeToRelTime_eq]
    generalize TwoPart.sub nanosPerSec abstime.parts now.parts = d at *
    have relative : abstime.nanos - now.nanos = d.hi * 1000000000 + d.lo := value_d.symm
    -- the whole seconds are the high part
    have whole : (∃ sec, abstime.nanos - now.nanos = sec * nanosPerSec ∧ sec * 1000000 < 2 ^ 64) ↔
        d.lo = 0 ∧ d.hi * 1000000 < 2 ^ 64 := by
      have normal_d : 0 ≤ d.lo ∧ d.lo < 1000000000 := normal_d
      simp only [relative, nanosPerSec]
      constructor
      · rintro ⟨sec, same, fits⟩
        have high : sec = d.hi := by omega
        exact ⟨by omega, high ▸ fits⟩
      · rintro ⟨low, fits⟩
        exact ⟨d.hi, by omega, fits⟩
    rw [whole]
    simp only
    by_cases past : long d.hi < 0
    · -- the seconds wrap to a negative number: no wait at all
      rw [if_pos past]
      have wraps := (long_neg_iff nonneg lt).mp past
      simp only [HostWaits, List.nil_eq, reduceCtorEq, false_and, exists_false, false_iff]
      omega
    · rw [if_neg past, uint64_long]
      exact hostWaits_relative_iff nonneg normal_d relative
  · have reads : naClSysFutexWaitAbs e host input addr value 0 =
        futexWaitOnHost e host sysaddr value none := by
      simp only [naClSysFutexWaitAbs, translated, ne_eq, not_true_eq_false, if_false]
    rw [reads, hostWaits_iff]
    simp [sgxOcallFutex]

/-! ## A wait of half a second -/

/-- The address space of the loader, four GiB up. -/
def waitSpace : AddressSpace := ⟨32, 0x100000000, fourGigabytes_inSpace⟩

/-- At second ten, a wait until `abstime`. -/
def waitUntil (abstime : Timespec) : WaitInput := ⟨waitSpace, fun _ => some abstime, .ok ⟨10, 0⟩⟩

/-- An enclave that the sandbox is not in, and the one of the loader. -/
def enclaveElsewhere : Enclave := ⟨0x20000000000, 0x21000000000, 0⟩
def enclaveOfLoader : Enclave := ⟨0, 0x1000000000, 0⟩

/-- A host on which every wait ends well. -/
def promptHost : FutexHost := ⟨fun _ => 0, 0⟩

theorem naClSysFutexWaitAbs_reaches_iff_seconds :
    (HostWaits (naClSysFutexWaitAbs enclaveElsewhere promptHost (waitUntil ⟨12, 0⟩) 4096 0 8192).2
        (IsRelative ⟨12, 0⟩ ⟨10, 0⟩) ↔
      sgxIsCompletelyWithinEnclave enclaveElsewhere 0x100001000 4 = false ∧
        ∃ sec, Timespec.nanos ⟨12, 0⟩ - Timespec.nanos ⟨10, 0⟩ = sec * nanosPerSec ∧
          sec * 1000000 < 2 ^ 64) ∧
    (HostWaits (naClSysFutexWaitAbs enclaveElsewhere promptHost (waitUntil ⟨12, 0⟩) 4096 0 0).2
        (· = none) ↔
      sgxIsCompletelyWithinEnclave enclaveElsewhere 0x100001000 4 = false) :=
  naClSysFutexWaitAbs_reaches_iff enclaveElsewhere promptHost 0 (by decide) (by decide) rfl rfl
    (by decide) (by decide) (by decide)

/-- Half a second arrives as 500000 seconds, and where the word is in the enclave not at all. -/
theorem naClSysFutexWaitAbs_multiplies :
    (naClSysFutexWaitAbs enclaveElsewhere promptHost (waitUntil ⟨10, 500000000⟩) 4096 0 8192).2 =
      [⟨0x100001000, 128, 0, some ⟨500000, 0⟩⟩] ∧
    ¬ IsRelative ⟨10, 500000000⟩ ⟨10, 0⟩ (some ⟨500000, 0⟩) ∧
    (naClSysFutexWaitAbs enclaveOfLoader promptHost (waitUntil ⟨10, 500000000⟩) 4096 0 8192).2 =
      [] := by
  have waits : ∀ e, (naClSysFutexWaitAbs e promptHost (waitUntil ⟨10, 500000000⟩) 4096 0 8192).2 =
      (futexWaitOnHost e promptHost 0x100001000 0 (some 500000000000)).2 := fun e => rfl
  refine ⟨?_, ?_, ?_⟩
  · rw [waits, futexWaitOnHost_calls, if_neg (by simp [sgxIsCompletelyWithinEnclave,
      enclaveElsewhere, uintptrMax])]
    rfl
  · rintro ⟨ts, same, -, rounded⟩
    cases same
    exact absurd rounded.2.2 (by decide)
  · rw [waits, futexWaitOnHost_calls, if_pos (by simp [sgxIsCompletelyWithinEnclave,
      enclaveOfLoader, uintptrMax])]

end SandboxTEE.Futex.Linux
