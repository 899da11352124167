import SandboxTEE.Lib.LittleEndian
import SandboxTEE.Lib.Writes
import SandboxTEE.Runtime.App
import Mathlib.Algebra.BigOperators.Group.List.Basic

/-! # The stack of the main thread (`sel_ldr_standard_sgx.c`)

`NaClCreateMainThread` puts the argument and environment strings on the stack of the untrusted
program, below a table of pointers to them.  It computes the size of both first, and fills them
with two moving pointers: `p` writes the words of the table, `strp` the strings.

What it writes is a list of writes at system addresses, in order.  Allocation succeeds.
-/

namespace SandboxTEE.Startup

open SandboxTEE.Lib SandboxTEE.Runtime

/-- The bytes of a C string, without the NUL behind them. -/
structure CString where
  bytes : List (BitVec 8)
  noNul : 0 ∉ bytes

/-- The bytes with the NUL, which are what `strcpy` copies. -/
def CString.terminated (s : CString) : List (BitVec 8) := s.bytes ++ [0]

/-- `strlen(s) + 1` -/
def CString.size (s : CString) : Nat := s.bytes.length + 1

def naClMapPageSize : Nat := 2 ^ 16

/-- `NACL_STACK_ALIGN_MASK` and `NACL_STACK_PAD_BELOW_ALIGN` of x86-64. -/
def naClStackAlignMask : Nat := 15
def naClStackPadBelowAlign : Nat := 8

def atNull : Nat := 0
def atBase : Nat := 7
def atEntry : Nat := 9

/-- The fields of `struct NaClApp` that matter here.  The constructor sets `addr_bits` to
    `NACL_MAX_ADDR_BITS`, and the loader puts the sandbox at a multiple of the map page. -/
structure NaClApp where
  space : AddressSpace
  stackSize : Nat
  userEntryPt : Nat
  dynamicTextStart : Nat
  addrBits : space.addrBits = 32
  aligned : space.memStart % naClMapPageSize = 0

/-- The ends of the enclave on the way. -/
inductive Fatal where
  /-- `NaClSysToUser` of an address outside of the sandbox. -/
  | sysToUser
  /-- "stack_ptr not aligned" -/
  | stackAlignment
  /-- `CHECK((char *) p == (char *) stack_ptr + ptr_tbl_size)` -/
  | pointerTable

def naClSysToUser (nap : NaClApp) (sysaddr : Nat) : Except Fatal Nat :=
  if sysaddr < nap.space.memStart ∨ nap.space.memStart + 2 ^ nap.space.addrBits ≤ sysaddr then
    .error .sysToUser
  else .ok (sysaddr - nap.space.memStart)

def naClGetInitialStackTop (nap : NaClApp) : Nat := 2 ^ nap.space.addrBits - naClMapPageSize

/-- The two pointers and what has been written so far. -/
structure Cursor where
  p : Nat
  strp : Nat
  writes : List (Write (BitVec 8))

/-- `*p++ = (uint32_t) word;` -/
def Cursor.word (c : Cursor) (word : Nat) : Cursor :=
  { c with p := c.p + 4, writes := c.writes ++ [⟨c.p, leBytes 4 word⟩] }

/-- The body of the loops over `argv` and `envv`. -/
def Cursor.string (nap : NaClApp) (c : Cursor) (s : CString) : Except Fatal Cursor := do
  let user ← naClSysToUser nap c.strp
  let c := c.word user
  .ok { c with strp := c.strp + s.size, writes := c.writes ++ [⟨c.strp, s.terminated⟩] }

/-- `if (0 != value) { *p++ = tag; *p++ = (uint32_t) value; }` -/
def Cursor.auxv (c : Cursor) (tag value : Nat) : Cursor :=
  if value ≠ 0 then (c.word tag).word value else c

def auxvEntries (nap : NaClApp) : Nat :=
  1 + (if nap.userEntryPt ≠ 0 then 1 else 0) + (if nap.dynamicTextStart ≠ 0 then 1 else 0)

def ptrTblSize (nap : NaClApp) (argc envc : Nat) : Nat :=
  (3 + argc + 1 + envc + 1 + auxvEntries nap * 2) * 4

/-- The bytes of the strings, with their NULs. -/
def stringsSize (strings : List CString) : Nat := (strings.map CString.size).sum

/-- `(size + NACL_STACK_ALIGN_MASK) & ~NACL_STACK_ALIGN_MASK` -/
def alignStack (size : Nat) : Nat :=
  (size + naClStackAlignMask) / (naClStackAlignMask + 1) * (naClStackAlignMask + 1)

/-- The size of table and strings, rounded up. -/
def imageSize (nap : NaClApp) (argv envv : List CString) : Nat :=
  alignStack (stringsSize argv + stringsSize envv + ptrTblSize nap argv.length envv.length)

/-- What the main thread starts with. -/
structure Image where
  stackPtr : Nat
  size : Nat
  writes : List (Write (BitVec 8))

/-- The pointer table and the strings. -/
def fillStack (nap : NaClApp) (argv envv : List CString) (stackPtr : Nat) :
    Except Fatal Cursor := do
  let c := Cursor.mk stackPtr (stackPtr + ptrTblSize nap argv.length envv.length) []
  -- the cleanup function pointer, always NULL
  let c := ((c.word 0).word envv.length).word argv.length
  let c ← argv.foldlM (Cursor.string nap) c
  let c := c.word 0
  let c ← envv.foldlM (Cursor.string nap) c
  let c := c.word 0
  let c := (c.auxv atEntry nap.userEntryPt).auxv atBase nap.dynamicTextStart
  .ok ((c.word atNull).word 0)

/-- `SIZE_T_MAX` -/
def sizeTMax : Nat := 2 ^ 64 - 1

/-- The dummy return address below the aligned stack pointer. -/
def returnAddress (stackPtr : Nat) : Write (BitVec 8) :=
  ⟨stackPtr - naClStackPadBelowAlign, List.replicate naClStackPadBelowAlign 0⟩

/-- `NaClCreateMainThread` up to the spawn; `none` when it gives up. -/
def naClCreateMainThread (nap : NaClApp) (argv envv : List CString) :
    Except Fatal (Option Image) :=
  if sizeTMax - (stringsSize argv + stringsSize envv) <
      ptrTblSize nap argv.length envv.length then .ok none
  else if nap.stackSize < imageSize nap argv envv then .ok none
  else
    -- a difference below zero is 0 here and huge in the source; both are refused
    match naClUserToSysAddrRange nap.space
        (naClGetInitialStackTop nap - imageSize nap argv envv) (imageSize nap argv envv) with
    | none => .ok none
    | some stackPtr =>
      if stackPtr % (naClStackAlignMask + 1) ≠ 0 then .error .stackAlignment
      else do
        let c ← fillStack nap argv envv stackPtr
        if c.p ≠ stackPtr + ptrTblSize nap argv.length envv.length then .error .pointerTable
        else .ok (some ⟨stackPtr, imageSize nap argv envv, c.writes ++ [returnAddress stackPtr]⟩)

end SandboxTEE.Startup
