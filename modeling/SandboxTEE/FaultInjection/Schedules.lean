import Mathlib.Data.List.Nodup
import SandboxTEE.FaultInjection.Parsing
import SandboxTEE.Lib.Text

/-! # Schedules of faults

A counter of a call site is a cursor on the run-length sequence of its items, and moves by one with
every call that it is for.  The parser turns `@` into `2 ^ 64 - 1` times, and a count of zero takes
one call all the same; the array for the sites never grows beyond four entries.
-/

namespace SandboxTEE.FaultInjection

open SandboxTEE.Lib
open SandboxTEE.Stdlib

/-! ## Counters as cursors -/

def NaClFaultInjectCallSiteCount.cursor (counter : NaClFaultInjectCallSiteCount) : Cursor :=
  ⟨counter.exprIx, counter.countInExpr⟩

/-- What a call gets from an expression, and how often. -/
def NaClFaultExpr.item (expr : NaClFaultExpr) : Option Nat × Nat :=
  (if expr.pass then none else some expr.faultValue, expr.count)

theorem bump_eq (entry : NaClFaultInjectInfo) (counter : NaClFaultInjectCallSiteCount) :
    (bump entry counter).1 = (counter.cursor.current (entry.expr.map NaClFaultExpr.item)).join ∧
      (bump entry counter).2.cursor = counter.cursor.next (entry.expr.map NaClFaultExpr.item) := by
  unfold bump Cursor.current Cursor.next NaClFaultInjectCallSiteCount.cursor
  rw [List.getElem?_map]
  cases entry.expr[counter.exprIx]? with
  | none => exact ⟨rfl, rfl⟩
  | some expr =>
    refine ⟨rfl, ?_⟩
    simp only [Option.map_some, NaClFaultExpr.item]
    split
    · rfl
    · rfl

theorem PassOrFail.item_expr (p : PassOrFail) : p.expr.item = (p.item.1, p.item.2.getD uintptrMax) := by
  cases p with
  | pass count => rfl
  | fail value count =>
    cases count with
    | none => rfl
    | some count => rfl

namespace Site

/-- The items as the counter goes along them. -/
def counters (site : Site) : List (Option Nat × Nat) := site.entry.expr.map NaClFaultExpr.item

theorem counters_eq (site : Site) :
    site.counters = capped uintptrMax (site.items.map PassOrFail.item) := by
  unfold counters entry capped
  rw [List.map_map, List.map_map]
  exact List.map_congr_left fun p _ => p.item_expr

theorem counters_pos {site : Site} (sound : site.Sound) : ∀ item ∈ site.counters, 0 < item.2 := by
  intro item member
  have positive {count : Count} (sound : count.Sound) : 0 < count.parsed := by
    cases count with
    | digits n => exact sound.1
    | forever => decide
  obtain ⟨_, listed, rfl⟩ := List.mem_map.mp member
  obtain ⟨p, among, rfl⟩ := List.mem_map.mp listed
  have sound := sound.items p among
  cases p with
  | pass count => exact positive sound
  | fail value count =>
    cases count with
    | none => exact Nat.one_pos
    | some count => exact positive (sound.2 count rfl)

/-- After `k` calls the counter is where the schedule is, up to `2 ^ 64 - 1` calls. -/
theorem current_counters {site : Site} (sound : site.Sound) {k : Nat} (early : k < uintptrMax) :
    (((Cursor.next site.counters)^[k] Cursor.start).current site.counters).join = site.scheduled k := by
  rw [Cursor.current_iterate (counters_pos sound), counters_eq, element_capped uintptrMax _ early]
  rfl

end Site

/-! ## Calls -/

variable {ι : Type} [DecidableEq ι]

/-- The calls that the counter for a call by `natp` at the site has been moved by. -/
def Site.earlier (site : Site) (natp : ι) (calls : List (ι × List Byte)) : Nat :=
  calls.countP fun call => call.2 = site.name ∧ (site.threadSpecific = true → call.1 = natp)

/-- The counter that a call works on. -/
def State.counter (s : State ι) (threadSpecific : Bool) (natp : ι) (ix : Nat) :
    NaClFaultInjectCallSiteCount :=
  if threadSpecific then s.threadCounters natp ix else s.callSites ix

variable {info : List NaClFaultInjectInfo} {entry : NaClFaultInjectInfo} {s : State ι} {natp : ι}
  {siteName : List Byte} {ix : Nat}

theorem faultP_unknown (unknown : ∀ entry ∈ info, entry.callSiteName ≠ siteName) :
    naClFaultInjectionFaultP info s natp siteName = (false, s) := by
  have missing : info.findIdx? (fun entry => entry.callSiteName = siteName) = none := by
    simpa [List.findIdx?_eq_none_iff] using unknown
  rw [naClFaultInjectionFaultP, missing]

/-- A call at an entry, and what becomes of the counters. -/
theorem faultP_known (found : info.findIdx? (fun entry => entry.callSiteName = siteName) = some ix)
    (here : info[ix]? = some entry) : let counter := s.counter entry.threadSpecificP natp ix
    let after := naClFaultInjectionFaultP info s natp siteName
    after.1 = (bump entry counter).1.isSome ∧
      (∀ v, (bump entry counter).1 = some v → naClFaultInjectionValue after.2 natp = v) ∧
      ∀ (threadSpecific : Bool) (natp' : ι) (ix' : Nat),
        after.2.counter threadSpecific natp' ix' =
          if ix' = ix ∧ threadSpecific = entry.threadSpecificP ∧ (threadSpecific = true → natp' = natp)
          then (bump entry counter).2 else s.counter threadSpecific natp' ix' := by
  intro counter after
  have run : after = naClFaultInjectionFaultP info s natp siteName := rfl
  simp only [naClFaultInjectionFaultP, found, here] at run
  cases specific : entry.threadSpecificP with
  | false =>
    simp only [specific, Bool.false_eq_true, if_false] at run
    have same : counter = s.callSites ix := by simp only [counter, State.counter, specific]; rfl
    rw [same]
    refine ⟨by rw [run], fun v fault => ?_, fun threadSpecific natp' ix' => ?_⟩
    · rw [run]
      simp [naClFaultInjectionValue, fault]
    · rw [run]
      cases threadSpecific with
      | true => simp [State.counter, State.threadCounters]
      | false => simp [State.counter, Function.update_apply]
  | true =>
    simp only [specific, if_true] at run
    have same : counter = s.threadCounters natp ix := by simp only [counter, State.counter, specific]; rfl
    rw [same]
    refine ⟨by rw [run], fun v fault => ?_, fun threadSpecific natp' ix' => ?_⟩
    · rw [run]
      simp [naClFaultInjectionValue, fault]
    · rw [run]
      cases threadSpecific with
      | false => simp [State.counter]
      | true =>
        by_cases self : natp' = natp
        · simp [State.counter, State.threadCounters, self, Function.update_apply]
        · simp [State.counter, State.threadCounters, self]

variable {sites : List Site}

/-- Distinct names: the entry that is found for a site is its own. -/
theorem findIdx_site (distinct : (sites.map Site.name).Nodup) {site : Site} (here : sites[ix]? = some site) :
    (sites.map Site.entry).findIdx? (fun entry => entry.callSiteName = site.name) = some ix := by
  obtain ⟨inside, rfl⟩ := List.getElem?_eq_some_iff.mp here
  rw [List.findIdx?_eq_some_iff_getElem]
  refine ⟨by simpa using inside, by simp [Site.entry], fun j before => ?_⟩
  simp only [List.getElem_map, Site.entry, decide_eq_true_eq]
  intro same
  have equal : (sites.map Site.name)[j]? = (sites.map Site.name)[ix]? := by
    simp [same, before.trans inside, inside]
  have bound : j < (sites.map Site.name).length := by simpa using before.trans inside
  exact Nat.ne_of_lt before ((List.getElem?_inj bound distinct).mp equal)

/-- The counters of all sites are as far as their calls. -/
def Counted (sites : List Site) (calls : List (ι × List Byte)) (s : State ι) : Prop :=
  ∀ ix site natp, sites[ix]? = some site →
    (s.counter site.threadSpecific natp ix).cursor =
      (Cursor.next site.counters)^[site.earlier natp calls] Cursor.start

theorem counted_init : Counted sites ([] : List (ι × List Byte)) .init := by
  intro ix site natp _
  cases specific : site.threadSpecific with
  | false => rfl
  | true => rfl

theorem Site.earlier_append (site : Site) (natp : ι) (calls : List (ι × List Byte))
    (call : ι × List Byte) : site.earlier natp (calls ++ [call]) = site.earlier natp calls +
      if call.2 = site.name ∧ (site.threadSpecific = true → call.1 = natp) then 1 else 0 := by
  unfold earlier
  rw [List.countP_append, List.countP_singleton]
  simp only [decide_eq_true_eq]

theorem Counted.call (distinct : (sites.map Site.name).Nodup) {calls : List (ι × List Byte)}
    (counted : Counted sites calls s) (call : ι × List Byte) : Counted sites (calls ++ [call])
      (naClFaultInjectionFaultP (sites.map Site.entry) s call.1 call.2).2 := by
  intro ix site natp here
  rw [site.earlier_append]
  have own := counted ix site natp here
  cases found : (sites.map Site.entry).findIdx? (fun entry => entry.callSiteName = call.2) with
  | none =>
    have unknown := List.findIdx?_eq_none_iff.mp found
    simp only [decide_eq_false_iff_not] at unknown
    have other : call.2 ≠ site.name := fun same => by
      have member := List.mem_map_of_mem (f := Site.entry) (List.mem_of_getElem? here)
      exact unknown _ member same.symm
    rw [faultP_unknown unknown, if_neg fun both => other both.1]
    exact own
  | some jx =>
    obtain ⟨inside, named, -⟩ := List.findIdx?_eq_some_iff_getElem.mp found
    rw [List.length_map] at inside
    have there : sites[jx]? = some sites[jx] := List.getElem?_eq_getElem inside
    simp only [List.getElem_map, decide_eq_true_eq] at named
    have entry : (sites.map Site.entry)[jx]? = some sites[jx].entry := by
      rw [List.getElem?_map, there]
      rfl
    rw [(faultP_known found entry).2.2]
    by_cases mine : ix = jx
    · subst mine
      rw [there] at here
      cases here
      have same : call.2 = sites[ix].name := named.symm
      by_cases counts : sites[ix].threadSpecific = true → call.1 = natp
      · rw [if_pos ⟨rfl, rfl, fun specific => (counts specific).symm⟩, if_pos ⟨same, counts⟩,
          (bump_eq _ _).2, Function.iterate_succ_apply', ← own]
        have caller : s.counter sites[ix].entry.threadSpecificP call.1 ix =
            s.counter sites[ix].threadSpecific natp ix := by
          change s.counter sites[ix].threadSpecific call.1 ix = _
          cases specific : sites[ix].threadSpecific with
          | false => rfl
          | true => rw [counts specific]
        rw [caller]
        rfl
      · rw [if_neg ?_, if_neg fun both => counts both.2]
        · exact own
        · rintro ⟨-, -, self⟩
          exact counts fun specific => (self specific).symm
    · have other : call.2 ≠ site.name := fun same => by
        have again := findIdx_site distinct here
        rw [← same, found] at again
        exact mine (Option.some.inj again).symm
      rw [if_neg fun all => mine all.1, if_neg fun both => other both.1]
      exact own

theorem counted_after (distinct : (sites.map Site.name).Nodup) (calls : List (ι × List Byte)) :
    Counted sites calls (State.after (sites.map Site.entry) calls) := by
  induction calls using List.reverseRecOn with
  | nil => exact counted_init
  | append_singleton calls call ih =>
    unfold State.after
    rw [List.foldl_append]
    exact ih.call distinct call

/-! ## Schedules -/

/-- The next call at a site gets what its schedule has for it. -/
def OnSchedule (info : List NaClFaultInjectInfo) (calls : List (ι × List Byte)) (natp : ι)
    (site : Site) : Prop :=
  let after := naClFaultInjectionFaultP info (State.after info calls) natp site.name
  after.1 = (site.scheduled (site.earlier natp calls)).isSome ∧
    ∀ v, site.scheduled (site.earlier natp calls) = some v → naClFaultInjectionValue after.2 natp = v

/-- A configuration of at most four sites with distinct names, by the documented grammar and with
    counts from one on and numbers that fit, is accepted; after any calls, each of its sites
    passes or fails the next one as its schedule says, up to `2 ^ 64 - 1` calls for one counter. -/
theorem naClFaultInjectionFaultP_onSchedule {sites : List (Site × Bool)} (few : sites.length ≤ 4)
    (distinct : (sites.map fun site => site.1.name).Nodup) (sound : ∀ site ∈ sites, site.1.Sound) :
    ∃ t, naClFaultInjectionModuleInternalInit (some (configText sites)) = .ok t ∧
      ∀ (calls : List (ι × List Byte)) (natp : ι), ∀ site ∈ sites,
        site.1.earlier natp calls < uintptrMax → OnSchedule t.info calls natp site.1 := by
  obtain ⟨t, init, info⟩ := moduleInternalInit_configText few sound
  refine ⟨t, init, fun calls natp site member early => ?_⟩
  have info' : t.info = (sites.map Prod.fst).map Site.entry := by
    rw [info, List.map_map]
    rfl
  have distinct' : ((sites.map Prod.fst).map Site.name).Nodup := by rwa [List.map_map]
  obtain ⟨ix, here⟩ := List.mem_iff_getElem?.mp (List.mem_map_of_mem (f := Prod.fst) member)
  have entry : ((sites.map Prod.fst).map Site.entry)[ix]? = some site.1.entry := by
    rw [List.getElem?_map, here]
    rfl
  rw [info']
  obtain ⟨returned, value, -⟩ := @faultP_known _ _ _ _
    (State.after ((sites.map Prod.fst).map Site.entry) calls) natp _ _ (findIdx_site distinct' here) entry
  have counter := counted_after distinct' calls ix site.1 natp here
  have fault := (bump_eq site.1.entry ((State.after ((sites.map Prod.fst).map Site.entry) calls).counter
    site.1.entry.threadSpecificP natp ix)).1
  have scheduled := Site.current_counters (sound site member) early
  rw [← counter] at scheduled
  rw [show _ = site.1.scheduled _ from fault.trans scheduled] at returned value
  exact ⟨returned, value⟩

/-- `a=GP2F,b=TF0x1F/@` -/
def twoSites : List (Site × Bool) :=
  [(⟨[97], false, .pass (.digits (.decimal ⟨1, Nat.one_lt_succ_succ 7⟩ [])),
      [(false, .fail none none)]⟩, true),
    (⟨[98], true, .fail (some (.hex false (false, ⟨1, Nat.one_lt_succ_succ 14⟩)
      [(true, Fin.last 15)])) (some .forever), []⟩, false)]

theorem naClFaultInjectionFaultP_onSchedule_twoSites :
    configText twoSites = ascii "a=GP2F,b=TF0x1F/@" ∧
    ∃ t, naClFaultInjectionModuleInternalInit (some (configText twoSites)) = .ok t ∧
      ∀ (calls : List (Fin 2 × List Byte)) (natp : Fin 2), ∀ site ∈ twoSites,
        site.1.earlier natp calls < uintptrMax → OnSchedule t.info calls natp site.1 := by
  refine ⟨by decide +kernel, naClFaultInjectionFaultP_onSchedule (by decide) (by decide) ?_⟩
  intro site member
  simp only [twoSites, List.mem_cons, List.not_mem_nil, or_false] at member
  obtain rfl | rfl := member
  · refine ⟨List.forall_mem_singleton.mpr (by decide), ⟨fun hex => hex.elim, trivial⟩,
      fun item among => ?_⟩
    simp only [Site.items, List.map_cons, List.map_nil, List.mem_cons, List.not_mem_nil,
      or_false] at among
    obtain rfl | rfl := among
    · exact ⟨by decide, by decide⟩
    · exact ⟨by rintro _ ⟨⟩, by rintro _ ⟨⟩⟩
  · refine ⟨List.forall_mem_singleton.mpr (by decide), trivial, fun item among => ?_⟩
    cases List.mem_singleton.mp among
    refine ⟨?_, ?_⟩
    · rintro _ ⟨⟩
      decide
    · rintro _ ⟨⟩
      exact trivial

/-- `s=GP0F` -/
def zeroTimes : List (Site × Bool) :=
  [(⟨[115], false, .pass (.digits (.octal [])), [(false, .fail none none)]⟩, false)]

/-- `a=GF,b=GF,c=GF,d=GF,e=GF` -/
def fiveSites : List (Site × Bool) :=
  [97, 98, 99, 100, 101].map fun c => (⟨[c], false, .fail none none, []⟩, true)

/-- An item that is to be repeated zero times takes the first call, which should get the fault
    behind it; and the fifth site is written behind the array. -/
theorem naClFaultInjectionFaultP_zeroTimes :
    configText zeroTimes = ascii "s=GP0F" ∧
    (∃ t, naClFaultInjectionModuleInternalInit (some (configText zeroTimes)) = .ok t ∧
      ¬ ∀ (calls : List (Fin 1 × List Byte)) (natp : Fin 1), ∀ site ∈ zeroTimes,
        site.1.earlier natp calls < uintptrMax → OnSchedule t.info calls natp site.1) ∧
    configText fiveSites = ascii "a=GF,b=GF,c=GF,d=GF,e=GF" ∧
    naClFaultInjectionModuleInternalInit (some (configText fiveSites)) = .error .overrun := by
  refine ⟨by decide +kernel, ⟨⟨[⟨[115], false, [⟨true, 0, 0⟩, ⟨false, 0, 1⟩]⟩], 0, 4⟩,
    by decide +kernel, fun all => ?_⟩, by decide +kernel, by decide +kernel⟩
  have fault := (all [] 0 _ List.mem_cons_self (by decide)).1
  cases fault

end SandboxTEE.FaultInjection
