import SandboxTEE.Loader.Model

/-! # Program headers that pass

What is known of the segments of an image once its program headers were validated, and of the
layout that the loop over them has computed.
-/

namespace SandboxTEE.Loader

open SandboxTEE.Lib

/-- The row of a segment that has memory. -/
def loadedRow (php : ElfPhdr) : Option NaClPhdrChecks :=
  if php.pMemsz = 0 then none else checkRow php

def loadedAction (php : ElfPhdr) : Option NaClPhdrCheckAction := (loadedRow php).map (·.action)

/-- The first segment with memory that is loaded for `action`. -/
def segmentOf (phdrs : List ElfPhdr) (action : NaClPhdrCheckAction) : Option ElfPhdr :=
  phdrs.find? fun php => loadedAction php = some action

variable {action : NaClPhdrCheckAction} {php : ElfPhdr} {phdrs : List ElfPhdr}

theorem segmentOf_concat_other (other : loadedAction php ≠ some action) :
    segmentOf (phdrs ++ [php]) action = segmentOf phdrs action := by
  simp [segmentOf, List.find?_append, other]

theorem segmentOf_concat_first (found : loadedAction php = some action)
    (first : segmentOf phdrs action = none) : segmentOf (phdrs ++ [php]) action = some php := by
  unfold segmentOf at first ⊢
  rw [List.find?_append, first]
  simp [found]

theorem segmentOf_eq_some (found : segmentOf phdrs action = some php) :
    php ∈ phdrs ∧ ∃ row, loadedRow php = some row ∧ row.action = action := by
  refine ⟨List.mem_of_find?_eq_some found, ?_⟩
  have matched := List.find?_some found
  simpa [loadedAction] using matched

variable {row : NaClPhdrChecks}

theorem segmentOf_ne_none (member : php ∈ phdrs) (loaded : loadedRow php = some row) :
    segmentOf phdrs row.action ≠ none := by
  intro missing
  have unmatched := List.find?_eq_none.mp missing php member
  exact unmatched (by simp [loadedAction, loaded])

theorem loadedRow_mem (loaded : loadedRow php = some row) : row ∈ naclPhdrCheckData := by
  unfold loadedRow at loaded
  split at loaded
  · cases loaded
  · exact List.mem_of_find?_eq_some loaded

/-- The segments that the layout records have one row each. -/
theorem row_unique {row' : NaClPhdrChecks} (member : row ∈ naclPhdrCheckData)
    (member' : row' ∈ naclPhdrCheckData) (same : row.action = row'.action)
    (recorded : row.action ≠ .ignore) : row = row' := by
  have table : ∀ r ∈ naclPhdrCheckData, ∀ r' ∈ naclPhdrCheckData, r.action = r'.action →
      r.action ≠ .ignore → r = r' := by decide
  exact table row member row' member' same recorded

/-! ## The loop -/

/-- A segment that passes its checks. -/
structure Placed (addrBits : Nat) (row : NaClPhdrChecks) (php : ElfPhdr) : Prop where
  vaddr : row.pVaddr = 0 ∨ row.pVaddr = php.pVaddr
  above : naclTrampolineEnd ≤ php.pVaddr.toNat
  within : php.pVaddr.toNat + php.pMemsz.toNat ≤ 2 ^ addrBits
  filesz : php.pFilesz.toNat ≤ php.pMemsz.toNat

variable {addrBits : Nat}

theorem checkSegment_ok (passed : checkSegment addrBits row php = .ok ()) :
    Placed addrBits row php := by
  unfold checkSegment at passed
  split at passed
  · cases passed
  · rename_i vaddr
    split at passed
    · cases passed
    · rename_i above
      split at passed
      · cases passed
      · rename_i within
        split at passed
        · cases passed
        · rename_i filesz
          refine ⟨?_, by omega, by omega, ?_⟩
          · by_cases free : row.pVaddr = 0
            · exact Or.inl free
            · exact Or.inr (Decidable.not_not.mp fun moved => vaddr ⟨free, moved⟩)
          · exact BitVec.le_def.mp (BitVec.not_lt.mp filesz)

/-- The start and the end of a segment, as the layout records them. -/
def bounds (segment : Option ElfPhdr) : Nat × Nat :=
  match segment with
  | none => (0, 0)
  | some php => (php.pVaddr.toNat, php.memEnd)

/-- The end of the text, as the layout records it. -/
def textEnd (segment : Option ElfPhdr) : Nat :=
  match segment with
  | none => 0
  | some php => (BitVec.ofNat 32 naclTrampolineEnd + php.pFilesz).toNat

/-- What the loop knows once it has looked at `done`. -/
structure Scanned (addrBits : Nat) (done : List ElfPhdr) (scan : Scan) : Prop where
  seen : ∀ row, row ∈ scan.seenSeg ↔ ∃ php ∈ done, loadedRow php = some row
  placed : ∀ php ∈ done, ∀ row, loadedRow php = some row → row.action ≠ .ignore →
    Placed addrBits row php ∧ php.memEnd ≤ scan.info.maxVaddr
  text : scan.info.staticTextEnd = textEnd (segmentOf done .textCheck)
  rodata : (scan.info.rodataStart, scan.info.rodataEnd) = bounds (segmentOf done .rodata)
  data : (scan.info.dataStart, scan.info.dataEnd) = bounds (segmentOf done .data)
  above : naclTrampolineEnd ≤ scan.info.maxVaddr
  max : scan.info.maxVaddr = naclTrampolineEnd ∨ ∃ php ∈ done, ∃ row, loadedRow php = some row ∧
    row.action ≠ .ignore ∧ scan.info.maxVaddr = php.memEnd

theorem scanned_start (addrBits : Nat) : Scanned addrBits [] {} where
  seen row := by simp
  placed php member := by cases member
  text := rfl
  rodata := rfl
  data := rfl
  above := Nat.le_refl _
  max := Or.inl rfl

theorem Scanned.skip {addrBits : Nat} {done : List ElfPhdr} {scan : Scan}
    (scanned : Scanned addrBits done scan) {php : ElfPhdr} (seenSeg : List NaClPhdrChecks)
    (seen : ∀ row, row ∈ seenSeg ↔ row ∈ scan.seenSeg ∨ loadedRow php = some row)
    (ignored : ∀ row, loadedRow php = some row → row.action = .ignore) :
    Scanned addrBits (done ++ [php]) { scan with seenSeg } := by
  have other : ∀ action, action ≠ .ignore → loadedAction php ≠ some action := by
    intro action recorded found
    obtain ⟨row, loaded, rfl⟩ := Option.map_eq_some_iff.mp found
    exact recorded (ignored row loaded)
  refine ⟨fun row => ?_, fun php' member row loaded recorded => ?_, ?_, ?_, ?_, scanned.above, ?_⟩
  · simp [seen, scanned.seen, or_and_right, exists_or]
  · rcases List.mem_append.mp member with member | member
    · exact scanned.placed php' member row loaded recorded
    · rw [List.mem_singleton.mp member] at loaded
      exact absurd (ignored row loaded) recorded
  · rw [segmentOf_concat_other (other .textCheck (by decide))]
    exact scanned.text
  · rw [segmentOf_concat_other (other .rodata (by decide))]
    exact scanned.rodata
  · rw [segmentOf_concat_other (other .data (by decide))]
    exact scanned.data
  · refine scanned.max.imp_right fun ⟨php', member, found⟩ => ?_
    exact ⟨php', List.mem_append_left _ member, found⟩

variable {info : NaClElfImageInfo}

variable {info' : NaClElfImageInfo}

theorem recordSegment_max (recorded : recordSegment action php info = .ok info') :
    info'.maxVaddr = max info.maxVaddr php.memEnd := by
  have raised : (if info.maxVaddr < php.memEnd then { info with maxVaddr := php.memEnd }
      else info).maxVaddr = max info.maxVaddr php.memEnd := by
    split
    · rename_i higher
      exact (Nat.max_eq_right (Nat.le_of_lt higher)).symm
    · rename_i lower
      exact (Nat.max_eq_left (Nat.not_lt.mp lower)).symm
  unfold recordSegment at recorded
  cases action with
  | none | rodata | data | ignore =>
    cases recorded
    exact raised
  | textCheck =>
    dsimp only at recorded
    split at recorded
    · cases recorded
    · cases recorded
      exact raised

/-- A segment's action decides which part of the layout it sets. -/
structure Records (action : NaClPhdrCheckAction) (php : ElfPhdr)
    (info info' : NaClElfImageInfo) : Prop where
  text : info'.staticTextEnd =
    if action = .textCheck then textEnd (some php) else info.staticTextEnd
  rodata : (info'.rodataStart, info'.rodataEnd) =
    if action = .rodata then bounds (some php) else (info.rodataStart, info.rodataEnd)
  data : (info'.dataStart, info'.dataEnd) =
    if action = .data then bounds (some php) else (info.dataStart, info.dataEnd)

theorem recordSegment_records (recorded : recordSegment action php info = .ok info') :
    Records action php info info' := by
  have kept : ∀ high : Nat, Records .none php info
      (if info.maxVaddr < high then { info with maxVaddr := high } else info) := by
    intro high
    split
    · exact ⟨rfl, rfl, rfl⟩
    · exact ⟨rfl, rfl, rfl⟩
  have base := kept php.memEnd
  unfold recordSegment at recorded
  cases action with
  | none =>
    cases recorded
    exact base
  | ignore =>
    cases recorded
    exact ⟨base.text, base.rodata, base.data⟩
  | textCheck =>
    dsimp only at recorded
    split at recorded
    · cases recorded
    · cases recorded
      exact ⟨rfl, base.rodata, base.data⟩
  | rodata =>
    cases recorded
    exact ⟨base.text, rfl, base.data⟩
  | data =>
    cases recorded
    exact ⟨base.text, base.rodata, rfl⟩

variable {scan : Scan} {done : List ElfPhdr}

theorem Scanned.segment_missing (scanned : Scanned addrBits done scan)
    (member : row ∈ naclPhdrCheckData) (recorded : row.action ≠ .ignore)
    (unseen : row ∉ scan.seenSeg) : segmentOf done row.action = none := by
  cases found : segmentOf done row.action with
  | none => rfl
  | some php =>
    obtain ⟨member', row', loaded, same⟩ := segmentOf_eq_some found
    have equal := row_unique member (loadedRow_mem loaded) same.symm recorded
    exact absurd ((scanned.seen row).mpr ⟨php, member', equal ▸ loaded⟩) unseen

theorem Scanned.record (scanned : Scanned addrBits done scan) (loaded : loadedRow php = some row)
    (recorded : row.action ≠ .ignore) (unseen : row ∉ scan.seenSeg)
    (placed : Placed addrBits row php)
    (record : recordSegment row.action php scan.info = .ok info) :
    Scanned addrBits (done ++ [php]) { seenSeg := row :: scan.seenSeg, info } := by
  have missing := scanned.segment_missing (loadedRow_mem loaded) recorded unseen
  have segment : ∀ action, segmentOf (done ++ [php]) action =
      if row.action = action then some php else segmentOf done action := by
    intro action
    by_cases own : row.action = action
    · rw [if_pos own, segmentOf_concat_first (by simp [loadedAction, loaded, own]) (own ▸ missing)]
    · rw [if_neg own, segmentOf_concat_other (by simp [loadedAction, loaded, own])]
  have records := recordSegment_records record
  have raised := recordSegment_max record
  refine ⟨fun other => ?_, fun php' member row' loaded' recorded' => ?_, ?_, ?_, ?_, ?_, ?_⟩
  · simp [scanned.seen, or_and_right, exists_or, loaded, eq_comm, or_comm]
  · rcases List.mem_append.mp member with member | member
    · have old := scanned.placed php' member row' loaded' recorded'
      exact ⟨old.1, raised ▸ Nat.le_trans old.2 (Nat.le_max_left _ _)⟩
    · rw [List.mem_singleton.mp member] at loaded' ⊢
      rw [loaded] at loaded'
      cases loaded'
      exact ⟨placed, raised ▸ Nat.le_max_right _ _⟩
  · rw [records.text, segment, scanned.text, ← apply_ite textEnd]
  · rw [records.rodata, segment, scanned.rodata, ← apply_ite bounds]
  · rw [records.data, segment, scanned.data, ← apply_ite bounds]
  · exact raised ▸ Nat.le_trans scanned.above (Nat.le_max_left _ _)
  · rcases Nat.le_total scan.info.maxVaddr php.memEnd with higher | lower
    · refine Or.inr ⟨php, by simp, row, loaded, recorded, ?_⟩
      rw [raised, Nat.max_eq_right higher]
    · rw [raised, Nat.max_eq_left lower]
      refine scanned.max.imp_right fun ⟨php', member, found⟩ => ?_
      exact ⟨php', List.mem_append_left _ member, found⟩

variable {scan' : Scan}

theorem scanSegment_scanned (scanned : Scanned addrBits done scan)
    (stepped : scanSegment addrBits scan php = .ok scan') :
    Scanned addrBits (done ++ [php]) scan' := by
  unfold scanSegment at stepped
  split at stepped
  · rename_i empty
    cases stepped
    have absent : loadedRow php = none := if_pos empty
    exact scanned.skip scan.seenSeg (by simp [absent]) (by simp [absent])
  · rename_i memory
    have present : loadedRow php = checkRow php := if_neg memory
    cases found : checkRow php with
    | none =>
      rw [found] at stepped
      cases stepped
    | some row =>
      rw [found] at stepped present
      dsimp only at stepped
      split at stepped
      · cases stepped
      · rename_i unseen
        split at stepped
        · rename_i ignored
          cases stepped
          exact scanned.skip (row :: scan.seenSeg) (by simp [present, or_comm, eq_comm])
            (by simp [present, ignored])
        · rename_i recorded
          obtain ⟨⟨⟩, passed, stepped⟩ := bind_eq_ok stepped
          obtain ⟨info, record, stepped⟩ := bind_eq_ok stepped
          cases stepped
          exact scanned.record present recorded unseen (checkSegment_ok passed) record

/-! ## Each segment -/

theorem scanSegment_row (stepped : scanSegment addrBits scan php = .ok scan') :
    loadedRow php = none ∧ php.pMemsz = 0 ∨
      ∃ row, loadedRow php = some row ∧ row ∉ scan.seenSeg := by
  unfold scanSegment at stepped
  split at stepped
  · next empty => exact Or.inl ⟨if_pos empty, empty⟩
  · next memory =>
    have present : loadedRow php = checkRow php := if_neg memory
    cases found : checkRow php with
    | none =>
      rw [found] at stepped
      cases stepped
    | some row =>
      rw [found] at stepped present
      dsimp only at stepped
      split at stepped
      · cases stepped
      · next unseen => exact Or.inr ⟨row, present, unseen⟩

/-- What is known of each segment of headers that pass. -/
structure EachChecked (addrBits : Nat) (phdrs : List ElfPhdr) : Prop where
  row : ∀ php ∈ phdrs, php.pMemsz ≠ 0 → ∃ row, loadedRow php = some row
  placed : ∀ php ∈ phdrs, ∀ row, loadedRow php = some row → row.action ≠ .ignore →
    Placed addrBits row php
  distinct : phdrs.Pairwise fun p q => ∀ row, loadedRow p = some row → loadedRow q ≠ some row

variable {image : NaClElfImage}

theorem naClElfImageValidateProgramHeaders_each
    (accepted : naClElfImageValidateProgramHeaders image addrBits = .ok info) :
    EachChecked addrBits image.phdrs := by
  unfold naClElfImageValidateProgramHeaders at accepted
  obtain ⟨scan, run, -⟩ := bind_eq_ok accepted
  suffices each : Scanned addrBits image.phdrs scan ∧
      (∀ php ∈ image.phdrs, php.pMemsz ≠ 0 → ∃ row, loadedRow php = some row) ∧
      image.phdrs.Pairwise fun p q => ∀ row, loadedRow p = some row → loadedRow q ≠ some row by
    exact ⟨each.2.1, fun php member row loaded recorded =>
      (each.1.placed php member row loaded recorded).1, each.2.2⟩
  refine foldlM_done (R := fun done scan => Scanned addrBits done scan ∧
    (∀ php ∈ done, php.pMemsz ≠ 0 → ∃ row, loadedRow php = some row) ∧
    done.Pairwise fun p q => ∀ row, loadedRow p = some row → loadedRow q ≠ some row)
    ?_ ⟨scanned_start addrBits, by simp, List.Pairwise.nil⟩ run
  rintro done scan php scan' ⟨scanned, rows, distinct⟩ stepped
  refine ⟨scanSegment_scanned scanned stepped, fun q member memory => ?_,
    List.pairwise_append.mpr ⟨distinct, List.pairwise_singleton .., ?_⟩⟩
  · cases List.mem_append.mp member with
    | inl earlier => exact rows q earlier memory
    | inr last =>
      obtain rfl := List.mem_singleton.mp last
      cases scanSegment_row stepped with
      | inl empty => exact absurd empty.2 memory
      | inr found => exact ⟨found.choose, found.choose_spec.1⟩
  · intro p earlier q last row loaded loaded'
    obtain rfl := List.mem_singleton.mp last
    cases scanSegment_row stepped with
    | inl empty =>
      rw [empty.1] at loaded'
      cases loaded'
    | inr found =>
      obtain ⟨row', own, unseen⟩ := found
      obtain rfl := Option.some.inj (own.symm.trans loaded')
      exact unseen ((scanned.seen row').mpr ⟨p, earlier, loaded⟩)

/-! ## The result -/

/-- A segment with memory, inside the address space. -/
structure Loadable (addrBits : Nat) (info : NaClElfImageInfo) (php : ElfPhdr) : Prop where
  memory : 0 < php.pMemsz.toNat
  above : naclTrampolineEnd ≤ php.pVaddr.toNat
  within : php.pVaddr.toNat + php.pMemsz.toNat ≤ 2 ^ addrBits
  filesz : php.pFilesz.toNat ≤ php.pMemsz.toNat
  counted : php.memEnd ≤ info.maxVaddr

/-- The layout of headers that pass. -/
structure Validated (addrBits : Nat) (phdrs : List ElfPhdr) (info : NaClElfImageInfo) : Prop where
  required : ∃ php, segmentOf phdrs .textCheck = some php ∧ php.pVaddr.toNat = naclTrampolineEnd
  loadable : ∀ action php, action ≠ .ignore → segmentOf phdrs action = some php →
    Loadable addrBits info php
  text : info.staticTextEnd = textEnd (segmentOf phdrs .textCheck)
  rodata : (info.rodataStart, info.rodataEnd) = bounds (segmentOf phdrs .rodata)
  data : (info.dataStart, info.dataEnd) = bounds (segmentOf phdrs .data)
  above : naclTrampolineEnd ≤ info.maxVaddr
  below : info.maxVaddr < 2 ^ 32
  within : info.maxVaddr ≤ 2 ^ addrBits

theorem loadedRow_memory (loaded : loadedRow php = some row) : 0 < php.pMemsz.toNat := by
  unfold loadedRow at loaded
  split at loaded
  · cases loaded
  · rename_i memory
    exact Nat.pos_of_ne_zero fun empty => memory (BitVec.eq_of_toNat_eq empty)

theorem ElfPhdr.memEnd_eq (php : ElfPhdr) :
    php.memEnd = (php.pVaddr.toNat + php.pMemsz.toNat) % 2 ^ 32 :=
  BitVec.toNat_add php.pVaddr php.pMemsz

theorem ElfPhdr.memEnd_le (php : ElfPhdr) : php.memEnd ≤ php.pVaddr.toNat + php.pMemsz.toNat :=
  php.memEnd_eq ▸ Nat.mod_le _ _

theorem naClElfImageValidateProgramHeaders_ok
    (accepted : naClElfImageValidateProgramHeaders image addrBits = .ok info) :
    Validated addrBits image.phdrs info := by
  unfold naClElfImageValidateProgramHeaders at accepted
  obtain ⟨scan, run, accepted⟩ := bind_eq_ok accepted
  have scanned : Scanned addrBits image.phdrs scan :=
    foldlM_done (fun _ _ _ _ => scanSegment_scanned) (scanned_start addrBits) run
  split at accepted
  · cases accepted
  · rename_i complete
    cases accepted
    -- the row of the text is the one that is required
    have seen : ⟨ptLoad, pfR ||| pfX, .textCheck, true, BitVec.ofNat 32 naclTrampolineEnd⟩ ∈
        scan.seenSeg := by
      refine Decidable.byContradiction fun unseen => complete ?_
      exact List.any_eq_true.mpr ⟨_, by decide, decide_eq_true ⟨rfl, unseen⟩⟩
    obtain ⟨php, member, loaded⟩ := (scanned.seen _).mp seen
    have loadable : ∀ action php, action ≠ .ignore → segmentOf image.phdrs action = some php →
        Loadable addrBits scan.info php := by
      intro action php recorded found
      obtain ⟨member, row, loaded, rfl⟩ := segmentOf_eq_some found
      have placed := scanned.placed php member row loaded recorded
      exact ⟨loadedRow_memory loaded, placed.1.above, placed.1.within, placed.1.filesz, placed.2⟩
    obtain ⟨text, found⟩ := Option.ne_none_iff_exists'.mp (segmentOf_ne_none member loaded)
    obtain ⟨member', row, loaded', same⟩ := segmentOf_eq_some found
    have own := row_unique (loadedRow_mem loaded') (loadedRow_mem loaded) same
      (same.symm ▸ by decide)
    have placed := (scanned.placed text member' row loaded' (same.symm ▸ by decide)).1
    have start : text.pVaddr.toNat = naclTrampolineEnd := by
      rw [own] at placed
      rcases placed.vaddr with free | fixed
      · exact absurd free (by decide)
      · rw [← fixed]
        rfl
    have inside := (loadable .textCheck text (by decide) found).within
    refine ⟨⟨text, found, start⟩, loadable, scanned.text, scanned.rodata, scanned.data,
      scanned.above, ?_, ?_⟩
    · rcases scanned.max with first | ⟨php', _, _, _, _, last⟩
      · rw [first]
        decide
      · rw [last]
        exact (php'.pVaddr + php'.pMemsz).isLt
    · rcases scanned.max with first | ⟨php', member', row', loaded', recorded', last⟩
      · rw [first, ← start]
        exact Nat.le_trans (Nat.le_add_right _ _) inside
      · rw [last]
        exact Nat.le_trans php'.memEnd_le
          (scanned.placed php' member' row' loaded' recorded').1.within

end SandboxTEE.Loader
