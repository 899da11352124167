import SandboxTEE.Lib.RunLength
import SandboxTEE.Stdlib.Strtoul

/-! # Fault injection (`fault_injection.c`)

The configuration is a string without its NUL.  `gNaClFaultInjectInfo` comes with the number of
entries that are allocated for it; a call of `NaClFaultInjectionFaultP` is one step, since the
counter it works on belongs to the thread or is guarded by a mutex.
-/

namespace SandboxTEE.FaultInjection

open SandboxTEE.Stdlib

structure NaClFaultExpr where
  pass : Bool
  faultValue : Nat
  count : Nat
deriving DecidableEq

structure NaClFaultInjectInfo where
  callSiteName : List Byte
  threadSpecificP : Bool
  expr : List NaClFaultExpr
deriving DecidableEq

/-! ## The parser -/

/-- `~(uintptr_t) 0` -/
def uintptrMax : Nat := 2 ^ 64 - 1

def naClFaultInjectionParseNumber (digits : List Byte) : Option (Nat × List Byte) :=
  match digits with
  | 64 :: rest => some (uintptrMax, rest)
  | p =>
    let (out, pp) := strtoul p 0
    if pp ≠ p then some (out, pp) else none

/-- Over a `+`. -/
def skipPlus : List Byte → List Byte
  | 43 :: faultCtrl => faultCtrl
  | faultCtrl => faultCtrl

/-- One round for a `P`, behind it. -/
def parsePass (faultCtrl : List Byte) : NaClFaultExpr × List Byte :=
  let (count, faultCtrl) := (naClFaultInjectionParseNumber faultCtrl).getD (1, faultCtrl)
  (⟨true, 0, count⟩, faultCtrl)

/-- One round for an `F`, behind it. -/
def parseFail (faultCtrl : List Byte) : Option (NaClFaultExpr × List Byte) :=
  let (faultValue, faultCtrl) := (naClFaultInjectionParseNumber faultCtrl).getD (0, faultCtrl)
  match faultCtrl with
  | 47 :: faultCtrl =>
    (naClFaultInjectionParseNumber faultCtrl).map fun (count, faultCtrl) =>
      (⟨false, faultValue, count⟩, faultCtrl)
  | faultCtrl => some (⟨false, faultValue, 1⟩, faultCtrl)

/-- The loop, with a bound for its rounds. -/
def parseLoop : Nat → List NaClFaultExpr → List Byte → Option (List NaClFaultExpr)
  | 0, _, _ => none
  | _ + 1, out, [] => some out
  | fuel + 1, out, c :: faultCtrl =>
    if c = 80 then
      let (expr, faultCtrl) := parsePass faultCtrl
      parseLoop fuel (out ++ [expr]) (skipPlus faultCtrl)
    else if c = 70 then
      match parseFail faultCtrl with
      | none => none
      | some (expr, faultCtrl) => parseLoop fuel (out ++ [expr]) (skipPlus faultCtrl)
    else none

/-- Each round takes a character at least. -/
def naClFaultInjectionParsePassOrFailSeq (faultCtrl : List Byte) : Option (List NaClFaultExpr) :=
  parseLoop (faultCtrl.length + 1) [] faultCtrl

/-- `thread_specific_p` and the expressions. -/
def naClFaultInjectionParseFaultControlExpr : List Byte → Option (Bool × List NaClFaultExpr)
  | 84 :: faultCtrl => (naClFaultInjectionParsePassOrFailSeq faultCtrl).map (true, ·)
  | 71 :: faultCtrl => (naClFaultInjectionParsePassOrFailSeq faultCtrl).map (false, ·)
  | _ => none

def naClFaultInjectionParseConfigEntry (entryStart : List Byte) : Option NaClFaultInjectInfo :=
  match entryStart.dropWhile fun c => c ≠ 61 with
  | [] => none
  | _ :: faultCtrl =>
    (naClFaultInjectionParseFaultControlExpr faultCtrl).map fun (threadSpecificP, expr) =>
      ⟨entryStart.takeWhile fun c => c ≠ 61, threadSpecificP, expr⟩

/-! ## The table -/

/-- How the initialisation ends early. -/
inductive Fault where
  /-- `NaClLog(LOG_FATAL, ...)` for a syntax error. -/
  | syntaxError
  /-- `NaClLog(LOG_FATAL, ...)` for too many records. -/
  | tooMany
  /-- A write behind the array. -/
  | overrun
deriving DecidableEq

structure Table where
  info : List NaClFaultInjectInfo
  /-- `gNaClSizeFaultInjectInfo` -/
  size : Nat
  /-- Entries that the array has room for. -/
  allocated : Nat
deriving DecidableEq

/-- The statics at the start. -/
def Table.empty : Table := ⟨[], 0, 0⟩

/-- `sizeof (struct NaClFaultInjectInfo)` -/
def infoSize : Nat := 40

def naClFaultInjectGrowIfNeeded (t : Table) : Except Fault Table :=
  if t.info.length < t.size then .ok t
  else
    let newSize := 2 * t.size
    let newSize := if newSize = 0 then 4 else newSize
    if uintptrMax / infoSize < newSize then .error .tooMany
    else .ok { t with allocated := newSize }

def naClFaultInjectAddEntry (t : Table) (entry : NaClFaultInjectInfo) : Except Fault Table := do
  let t ← naClFaultInjectGrowIfNeeded t
  if t.info.length < t.allocated then .ok { t with info := t.info ++ [entry] }
  else .error .overrun

/-- The loop over the entries, with a bound for their number. -/
def initLoop : Nat → Table → List Byte → Except Fault Table
  | 0, t, _ => .ok t
  | fuel + 1, t, curEntry =>
    if curEntry = [] then .ok t
    else
      match naClFaultInjectionParseConfigEntry (curEntry.takeWhile fun c => c ≠ 44 ∧ c ≠ 58) with
      | none => .error .syntaxError
      | some entry => do
        let t ← naClFaultInjectAddEntry t entry
        initLoop fuel t ((curEntry.dropWhile fun c => c ≠ 44 ∧ c ≠ 58).drop 1)

/-- `none` stands for an environment without `NACL_FAULT_INJECTION`. -/
def naClFaultInjectionModuleInternalInit : Option (List Byte) → Except Fault Table
  | none => .ok .empty
  | some config => initLoop (config.length + 1) .empty config

/-! ## Calls -/

structure NaClFaultInjectCallSiteCount where
  exprIx : Nat
  countInExpr : Nat

variable {ι : Type}

structure State (ι : Type) where
  /-- `gNaClFaultInjectCallSites` -/
  callSites : Nat → NaClFaultInjectCallSiteCount
  /-- `gTls_FaultInjectionCount` of each thread. -/
  injectionCount : ι → Option (Nat → NaClFaultInjectCallSiteCount)
  /-- `gTls_FaultInjectValue` of each thread. -/
  injectValue : ι → Nat

/-- Behind the initialisation. -/
def State.init : State ι where
  callSites := fun _ => ⟨0, 0⟩
  injectionCount := fun _ => none
  injectValue := fun _ => 0

/-- The counters of a thread, which are allocated when it first asks for one. -/
def State.threadCounters (s : State ι) (natp : ι) : Nat → NaClFaultInjectCallSiteCount :=
  (s.injectionCount natp).getD fun _ => ⟨0, 0⟩

/-- What a counter says about the call, a value for a fault, and the counter behind the call. -/
def bump (entry : NaClFaultInjectInfo) (counter : NaClFaultInjectCallSiteCount) :
    Option Nat × NaClFaultInjectCallSiteCount :=
  match entry.expr[counter.exprIx]? with
  | none => (none, counter)
  | some expr =>
    (if expr.pass then none else some expr.faultValue,
      if expr.count ≤ counter.countInExpr + 1 then ⟨counter.exprIx + 1, 0⟩
      else ⟨counter.exprIx, counter.countInExpr + 1⟩)

variable [DecidableEq ι]

/-- `rv`, and the state behind the call. -/
def naClFaultInjectionFaultP (info : List NaClFaultInjectInfo) (s : State ι) (natp : ι)
    (siteName : List Byte) : Bool × State ι :=
  match info.findIdx? fun entry => entry.callSiteName = siteName with
  | none => (false, s)
  | some ix =>
    match info[ix]? with
    | none => (false, s)
    | some entry =>
      let counters := if entry.threadSpecificP then s.threadCounters natp else s.callSites
      let (fault, counter) := bump entry (counters ix)
      let counters := Function.update counters ix counter
      let injectValue :=
        match fault with
        | none => s.injectValue
        | some faultValue => Function.update s.injectValue natp faultValue
      (fault.isSome,
        if entry.threadSpecificP then
          ⟨s.callSites, Function.update s.injectionCount natp (some counters), injectValue⟩
        else ⟨counters, s.injectionCount, injectValue⟩)

def naClFaultInjectionValue (s : State ι) (natp : ι) : Nat := s.injectValue natp

/-- The state after calls, each by a thread at a site. -/
def State.after (info : List NaClFaultInjectInfo) (calls : List (ι × List Byte)) : State ι :=
  calls.foldl (fun s call => (naClFaultInjectionFaultP info s call.1 call.2).2) .init

end SandboxTEE.FaultInjection
