import Mathlib.Data.BitVec

/-! # User and system addresses (`sel_ldr-inl.h`)

The untrusted module lives in `[mem_start, mem_start + 2^addr_bits)`.  Its own
addresses are offsets into this range; zero is never a valid one.  `none` is
`kNaClBadAddress`.
-/

namespace SandboxTEE.Runtime

/-- The fields of `struct NaClApp` that address translation reads.  The sandbox lies inside
    the 64-bit address space, so that translation does not wrap. -/
structure AddressSpace where
  addrBits : Nat
  memStart : Nat
  inSpace : memStart + 2 ^ addrBits < 2 ^ 64

/-- The usual sandbox lies in the second four gigabytes. -/
theorem fourGigabytes_inSpace : 2 ^ 32 + 2 ^ 32 < 2 ^ 64 := by decide

def naClUserToSysAddr (nap : AddressSpace) (uaddr : Nat) : Option Nat :=
  if uaddr = 0 ∨ 2 ^ nap.addrBits ≤ uaddr then none else some (uaddr + nap.memStart)

/-- `end_addr` wraps in the source; the test for the wrap is that the sum is 2^64 or more. -/
def naClUserToSysAddrRange (nap : AddressSpace) (uaddr count : Nat) : Option Nat :=
  if uaddr = 0 then none
  else if 2 ^ 64 ≤ uaddr + count then none
  else if 2 ^ nap.addrBits < uaddr + count then none
  else some (uaddr + nap.memStart)

theorem naClUserToSysAddrRange_some {space : AddressSpace} {uaddr count addr : Nat}
    (translated : naClUserToSysAddrRange space uaddr count = some addr) :
    uaddr ≠ 0 ∧ uaddr + count ≤ 2 ^ space.addrBits ∧ addr = uaddr + space.memStart := by
  rw [naClUserToSysAddrRange] at translated
  split at translated
  · cases translated
  · split at translated
    · cases translated
    · split at translated
      · cases translated
      · next nonzero _ inside =>
        cases translated
        exact ⟨nonzero, Nat.le_of_not_lt inside, rfl⟩

/-! ## Error numbers of the NaCl ABI -/

def naClAbiENOENT : Nat := 2
def naClAbiEBADF : Nat := 9
def naClAbiEAGAIN : Nat := 11
def naClAbiENOMEM : Nat := 12
def naClAbiEACCES : Nat := 13
def naClAbiEFAULT : Nat := 14
def naClAbiENODEV : Nat := 19
def naClAbiEINVAL : Nat := 22
def naClAbiENAMETOOLONG : Nat := 36
def naClAbiENOSYS : Nat := 38

/-- `(uint32_t) -errno`. -/
def negErrno (errno : Nat) : BitVec 32 := -BitVec.ofNat 32 errno

end SandboxTEE.Runtime
