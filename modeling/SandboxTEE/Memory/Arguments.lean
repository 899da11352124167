import SandboxTEE.Lib.Run
import SandboxTEE.Memory.Calls

/-! # Accepted arguments

What is known of the range of a memory call once its arguments have passed every check
that comes before the race detector.
-/

namespace SandboxTEE.Memory

open SandboxTEE.Lib (bind_eq_ok)
open SandboxTEE.Runtime SandboxTEE.Vmmap

variable {nap : NaClApp}

/-- A value that the first branch does not give comes from the second. -/
theorem of_ite_eq {α : Type} {c : Prop} [Decidable c] {x y r : α}
    (taken : (if c then x else y) = r) (other : x ≠ r) : ¬c ∧ y = r := by
  by_cases holds : c
  · rw [if_pos holds] at taken
    exact absurd taken other
  · rw [if_neg holds] at taken
    exact ⟨holds, taken⟩

theorem orFatal_eq_ok {α : Type} {result : Option α} {a : α} (run : orFatal result = .ok a) :
    result = some a := by
  cases result with
  | none => cases run
  | some b =>
    cases run
    rfl

theorem naClUserToSysAddrRange_below {space : AddressSpace} {uaddr count : Nat}
    (translates : naClUserToSysAddrRange space uaddr count ≠ none) :
    uaddr ≠ 0 ∧ uaddr + count ≤ 2 ^ space.addrBits := by
  obtain ⟨addr, translated⟩ := Option.ne_none_iff_exists'.mp translates
  obtain ⟨nonzero, within, -⟩ := naClUserToSysAddrRange_some translated
  exact ⟨nonzero, within⟩

theorem naClRoundAllocPage_pos {nbytes : Nat} (positive : 0 < nbytes) :
    0 < naClRoundAllocPage nbytes := by
  simp only [naClRoundAllocPage, naClMapPageSize]
  omega

theorem naClIsAllocPageMultiple_iff {n : Nat} :
    naClIsAllocPageMultiple n = true ↔ n % naClMapPageSize = 0 := by
  simp [naClIsAllocPageMultiple]

structure MunmapAccepts (nap : NaClApp) (start length : BitVec 32) (rounded : Nat) : Prop where
  aligned : start.toNat % naClMapPageSize = 0
  rounded_eq : rounded = naClRoundAllocPage length.toNat % 2 ^ 32
  nonzero : rounded ≠ 0
  start_ne_zero : start.toNat ≠ 0
  within : start.toNat + rounded ≤ 2 ^ nap.space.addrBits
  guard : naClSysCommonAddrRangeContainsExecutablePages nap start.toNat rounded = false

theorem munmapArguments_ok {start length : BitVec 32} {rounded : Nat}
    (accepted : munmapArguments nap start length = .ok rounded) :
    MunmapAccepts nap start length rounded := by
  unfold munmapArguments at accepted
  obtain ⟨aligned, accepted⟩ := of_ite_eq accepted nofun
  obtain ⟨nonzero, accepted⟩ := of_ite_eq accepted nofun
  obtain ⟨translates, accepted⟩ := of_ite_eq accepted nofun
  obtain ⟨guard, accepted⟩ := of_ite_eq accepted nofun
  cases accepted
  obtain ⟨start_ne_zero, within⟩ := naClUserToSysAddrRange_below translates
  exact ⟨naClIsAllocPageMultiple_iff.mp (Bool.eq_true_of_not_eq_false aligned), rfl, nonzero,
    start_ne_zero, within, Bool.eq_false_of_not_eq_true guard⟩

structure MprotectAccepts (getFlags : DescId → BitVec 32) (nap : NaClApp) (start : BitVec 32)
    (length : Nat) (prot : BitVec 32) (rounded : Nat) (memMap : Map) : Prop where
  aligned : start.toNat % naClMapPageSize = 0
  rounded_eq : rounded = naClRoundAllocPage length
  start_ne_zero : start.toNat ≠ 0
  within : start.toNat + rounded ≤ 2 ^ nap.space.addrBits
  guard : naClSysCommonAddrRangeContainsExecutablePages nap start.toNat rounded = false
  changed : naClVmmapChangeProt getFlags nap.memMap (start.toNat / naClPageSize)
    (rounded / naClPageSize) prot = some (true, memMap)

theorem mprotectArguments_ok {getFlags : DescId → BitVec 32} {start prot : BitVec 32}
    {length rounded : Nat} {memMap : Map}
    (accepted : mprotectArguments getFlags nap start length prot = .ok (.ok rounded, memMap)) :
    MprotectAccepts getFlags nap start length prot rounded memMap := by
  unfold mprotectArguments at accepted
  obtain ⟨aligned, accepted⟩ := of_ite_eq accepted nofun
  obtain ⟨translates, accepted⟩ := of_ite_eq accepted nofun
  obtain ⟨_, accepted⟩ := of_ite_eq accepted nofun
  obtain ⟨guard, accepted⟩ := of_ite_eq accepted nofun
  obtain ⟨⟨changed, sorted⟩, found, accepted⟩ := bind_eq_ok accepted
  cases changed with
  | false => cases accepted
  | true =>
    cases accepted
    obtain ⟨start_ne_zero, within⟩ := naClUserToSysAddrRange_below translates
    exact ⟨naClIsAllocPageMultiple_iff.mp (Bool.eq_true_of_not_eq_false aligned), rfl,
      start_ne_zero, within, Bool.eq_false_of_not_eq_true guard, orFatal_eq_ok found⟩

structure MmapAccepts (nap : NaClApp) (call : MmapCall) (target : MmapTarget)
    (memMap : Map) : Prop where
  mappingCode : mmapMappingCode nap call = .ok target.mappingCode
  fixed_aligned : call.fixed → call.start % naClMapPageSize = 0
  allocRoundedLength_eq : target.allocRoundedLength = naClRoundAllocPage call.length
  nonzero : target.allocRoundedLength ≠ 0
  address : mmapAddress nap call (naClTruncAllocPage call.start) target.allocRoundedLength =
    .ok (target.usraddr, memMap)
  usraddr_lt : target.usraddr < 2 ^ nap.space.addrBits
  within : target.usraddr + target.allocRoundedLength ≤ 2 ^ nap.space.addrBits
  length_le : target.length ≤ target.allocRoundedLength
  guard : target.mappingCode = false →
    naClSysCommonAddrRangeContainsExecutablePages nap target.usraddr target.length = false

theorem mmapTarget_ok {call : MmapCall} {target : MmapTarget} {memMap : Map}
    (accepted : mmapTarget nap call = .ok (.ok target, memMap)) :
    MmapAccepts nap call target memMap := by
  unfold mmapTarget at accepted
  obtain ⟨_, accepted⟩ := of_ite_eq accepted nofun
  cases code : mmapMappingCode nap call with
  | error errno =>
    rw [code] at accepted
    cases accepted
  | ok mappingCode =>
    rw [code] at accepted
    obtain ⟨aligned, accepted⟩ := of_ite_eq accepted nofun
    obtain ⟨_, accepted⟩ := of_ite_eq accepted nofun
    obtain ⟨_, accepted⟩ := of_ite_eq accepted nofun
    obtain ⟨nonzero, accepted⟩ := of_ite_eq accepted nofun
    obtain ⟨_, accepted⟩ := of_ite_eq accepted nofun
    cases file : mmapFile call with
    | error e =>
      rw [file] at accepted
      cases accepted
    | ok bytes =>
      obtain ⟨fileSize, fileBytes, hostRoundedFileBytes⟩ := bytes
      rw [file] at accepted
      obtain ⟨_, accepted⟩ := of_ite_eq accepted nofun
      obtain ⟨⟨usraddr, sorted⟩, address, accepted⟩ := bind_eq_ok accepted
      obtain ⟨_, accepted⟩ := of_ite_eq accepted nofun
      obtain ⟨inside, accepted⟩ := of_ite_eq accepted nofun
      obtain ⟨_, accepted⟩ := of_ite_eq accepted nofun
      obtain ⟨guard, accepted⟩ := of_ite_eq accepted nofun
      cases accepted
      obtain ⟨usraddr_lt, within⟩ := not_or.mp inside
      refine ⟨code, fun fixed => ?_, rfl, fun zero => nonzero ?_, address,
        Nat.lt_of_not_le usraddr_lt, Nat.le_of_not_lt within, Nat.min_le_left _ _, fun plain => ?_⟩
      · refine naClIsAllocPageMultiple_iff.mp (Bool.eq_true_of_not_eq_false fun unaligned => ?_)
        exact aligned ⟨unaligned, fixed⟩
      · have zero : naClRoundAllocPage call.length = 0 := zero
        rw [zero, Nat.zero_mod]
      · exact Bool.eq_false_of_not_eq_true fun contains => guard ⟨plain, contains⟩

end SandboxTEE.Memory
