import Mathlib.Data.List.Nodup
import Mathlib.Data.List.Range

/-! # A sequence of parts that is laid out twice

A part is a run of addresses with a tag, and two countings give it different numbers of addresses.
Where the parts that take up something have different tags, the two layouts are the same just if the
numbers are, but for an address more that the next part makes up for (`inStep_iff`).
-/

namespace SandboxTEE.Lib

variable {α β τ : Type}

/-! ## Sections of a list -/

variable {f g : α → List β}

theorem length_flatMap_le : ∀ {xs : List α},
    (∀ x ∈ xs, (g x).length ≤ (f x).length) → (xs.flatMap g).length ≤ (xs.flatMap f).length
  | [], _ => Nat.le_refl _
  | x :: xs, shorter => by
    rw [List.forall_mem_cons] at shorter
    rw [List.flatMap_cons, List.flatMap_cons, List.length_append, List.length_append]
    exact Nat.add_le_add shorter.1 (length_flatMap_le shorter.2)

/-- Sections that are not longer than the others are the same as these if they are so together. -/
theorem flatMap_eq_iff : ∀ {xs : List α},
    (∀ x ∈ xs, (g x).length ≤ (f x).length) →
      (xs.flatMap f = xs.flatMap g ↔ ∀ x ∈ xs, f x = g x)
  | [], _ => by simp
  | x :: xs, shorter => by
    rw [List.forall_mem_cons] at shorter
    have rest := flatMap_eq_iff shorter.2
    rw [List.flatMap_cons, List.flatMap_cons, List.forall_mem_cons, ← rest]
    constructor
    · intro same
      have behind := length_flatMap_le shorter.2
      have length := congrArg List.length same
      rw [List.length_append, List.length_append] at length
      exact List.append_inj same (by omega)
    · rintro ⟨here, behind⟩
      rw [here, behind]

theorem flatMap_filter_eq {p : α → Bool} : ∀ xs : List α,
    (xs.filter p).flatMap f = xs.flatMap fun x => if p x then f x else []
  | [] => rfl
  | x :: xs => by
    rw [List.filter_cons, List.flatMap_cons, ← flatMap_filter_eq xs]
    split <;> simp_all

/-- What stands in front of a mark and what stands behind it can be told apart, where the mark does
    not occur in the one and the other is not longer. -/
theorem append_mark_iff {front front' behind behind' rest mark : List α} {a : α}
    (starts : mark.head? = some a) (absent : a ∉ front') (short : behind'.length ≤ behind.length) :
    front ++ (mark ++ (behind ++ rest)) = front' ++ (mark ++ (behind' ++ rest)) ↔
      front = front' ∧ behind = behind' := by
  constructor
  · intro same
    rw [List.append_eq_append_iff] at same
    cases same with
    | inl longer =>
      obtain ⟨more, rfl, same⟩ := longer
      cases more with
      | nil =>
        rw [List.nil_append] at same
        exact ⟨(List.append_nil front).symm, List.append_cancel_right (List.append_cancel_left same)⟩
      | cons b more =>
        cases mark with
        | nil => cases starts
        | cons c mark =>
          obtain ⟨first, -⟩ := List.cons.inj same
          obtain rfl := Option.some.inj starts
          exact absurd (by simp [first]) absent
    | inr shorter =>
      obtain ⟨more, rfl, same⟩ := shorter
      have length := congrArg List.length same
      simp only [List.length_append] at length
      obtain rfl : more = [] := List.length_eq_zero_iff.mp (by omega)
      rw [List.nil_append] at same
      exact ⟨List.append_nil front', (List.append_cancel_right (List.append_cancel_left same)).symm⟩
  · rintro ⟨rfl, rfl⟩
    rfl

/-! ## Runs -/

/-- Addresses from `start` on, `size` apart. -/
def addressRun (size start count : Nat) (tag : τ) : List (Nat × τ) :=
  (List.range count).map fun i => (start + i * size, tag)

@[simp] theorem addressRun_zero (size start : Nat) (tag : τ) : addressRun size start 0 tag = [] := rfl

@[simp] theorem length_addressRun (size start count : Nat) (tag : τ) :
    (addressRun size start count tag).length = count := by
  simp [addressRun]

@[simp] theorem addressRun_one (size start : Nat) (tag : τ) :
    addressRun size start 1 tag = [(start, tag)] := by
  simp [addressRun]

theorem addressRun_succ (size start count : Nat) (tag : τ) : addressRun size start (count + 1) tag =
      (start, tag) :: addressRun size (start + size) count tag := by
  rw [addressRun, List.range_succ_eq_map, List.map_cons, List.map_map, Nat.zero_mul, Nat.add_zero]
  refine congrArg _ (List.map_congr_left fun i _ => ?_)
  simp only [Function.comp_apply, Nat.succ_mul]
  rw [Nat.add_assoc, Nat.add_comm (i * size)]

theorem addressRun_add (size start m n : Nat) (tag : τ) : addressRun size start (m + n) tag =
      addressRun size start m tag ++ addressRun size (start + m * size) n tag := by
  induction m generalizing start with
  | zero => simp
  | succ m ih =>
    rw [Nat.succ_add, addressRun_succ, addressRun_succ, ih, List.cons_append, Nat.succ_mul,
      Nat.add_assoc, Nat.add_comm size]

variable {count start : Nat} {tag : τ}

theorem tag_of_mem_addressRun {size : Nat} {x : Nat × τ}
    (member : x ∈ addressRun size start count tag) : x.2 = tag := by
  obtain ⟨i, -, rfl⟩ := List.mem_map.mp member
  rfl

theorem addressRun_eq_iff {size start' count' : Nat} {tag' : τ} :
    addressRun size start count tag = addressRun size start' count' tag' ↔
      count = count' ∧ (count = 0 ∨ start = start' ∧ tag = tag') := by
  constructor
  · intro same
    have length := congrArg List.length same
    rw [length_addressRun, length_addressRun] at length
    refine ⟨length, ?_⟩
    subst length
    cases count with
    | zero => exact Or.inl rfl
    | succ n =>
      rw [addressRun_succ, addressRun_succ] at same
      exact Or.inr (Prod.mk.inj (List.cons.inj same).1)
  · rintro ⟨rfl, rfl | ⟨rfl, rfl⟩⟩
    · rfl
    · rfl

theorem start_mem_addressRun {size : Nat} (tag : τ) (some : 0 < count) :
    (start, tag) ∈ addressRun size start count tag := by
  obtain ⟨n, rfl⟩ := Nat.exists_eq_succ_of_ne_zero some.ne'
  rw [addressRun_succ]
  exact List.mem_cons_self

theorem nodup_addressRun {size : Nat} (tag : τ) (apart : 0 < size) :
    (addressRun size start count tag).Nodup := by
  refine List.Nodup.map (fun i j same => ?_) List.nodup_range
  have address := Nat.add_left_cancel (Prod.mk.inj same).1
  exact Nat.eq_of_mul_eq_mul_right apart address

/-! ## Parts -/

/-- A part with its two numbers of addresses. -/
structure PagedPart (τ : Type) where
  start : Nat
  tag : τ
  first : Nat
  second : Nat
  /-- The part takes up something. -/
  solid : Bool

/-- The layout of the parts by one of the countings. -/
def layOut (size : Nat) (count : PagedPart τ → Nat) (parts : List (PagedPart τ)) : List (Nat × τ) :=
  parts.flatMap fun p => addressRun size p.start (count p) p.tag

/-- How the two numbers of the parts depend on each other. -/
structure Paired (parts : List (PagedPart τ)) : Prop where
  tags : parts.Pairwise fun p q => p.solid = true → q.solid = true → p.tag ≠ q.tag
  second_le : ∀ p ∈ parts, p.second ≤ p.first + 1
  hollow : ∀ p ∈ parts, p.solid = false → p.second = 0
  solid : ∀ p ∈ parts, p.solid = true → 0 < p.first

/-- The numbers of each part are the same, or the second has one address more, and a later part that
    takes up nothing has just this one in the first counting, with none in between. -/
def InStep (size : Nat) : Option (Nat × τ) → List (PagedPart τ) → Prop
  | none, [] => True
  | some _, [] => False
  | none, p :: parts =>
    if p.first = p.second then InStep size none parts
    else p.second = p.first + 1 ∧ InStep size (some (p.start + p.first * size, p.tag)) parts
  | some x, p :: parts =>
    if p.first = 0 then InStep size (some x) parts
    else p.solid = false ∧ p.first = 1 ∧ (p.start, p.tag) = x ∧ InStep size none parts

section Parts

variable {size : Nat} {p : PagedPart τ} {parts : List (PagedPart τ)}

theorem Paired.tail (paired : Paired (p :: parts)) : Paired parts where
  tags := (List.pairwise_cons.mp paired.tags).2
  second_le q member := paired.second_le q (List.mem_cons_of_mem p member)
  hollow q member := paired.hollow q (List.mem_cons_of_mem p member)
  solid q member := paired.solid q (List.mem_cons_of_mem p member)

theorem layOut_cons (count : PagedPart τ → Nat) : layOut size count (p :: parts) =
    addressRun size p.start (count p) p.tag ++ layOut size count parts := List.flatMap_cons

variable {x : Nat × τ}

/-- A part that adds to the second layout takes up something. -/
theorem Paired.solid_of_mem (paired : Paired parts)
    (member : x ∈ layOut size PagedPart.second parts) :
    ∃ p ∈ parts, p.solid = true ∧ p.tag = x.2 := by
  obtain ⟨p, there, here⟩ := List.mem_flatMap.mp member
  refine ⟨p, there, ?_, (tag_of_mem_addressRun here).symm⟩
  cases solid : p.solid with
  | true => rfl
  | false =>
    rw [paired.hollow p there solid] at here
    cases here

/-- The first address of the second layout is that of a part, and is in the first layout too. -/
theorem Paired.head_mem (paired : Paired parts) {rest : List (Nat × τ)}
    (starts : layOut size PagedPart.second parts = x :: rest) :
    x ∈ layOut size PagedPart.first parts := by
  induction parts with
  | nil => cases starts
  | cons p parts ih =>
    rw [layOut_cons] at starts ⊢
    by_cases none : p.second = 0
    · rw [none, addressRun_zero, List.nil_append] at starts
      exact List.mem_append_right _ (ih paired.tail starts)
    · obtain ⟨n, count⟩ := Nat.exists_eq_succ_of_ne_zero none
      rw [count, addressRun_succ, List.cons_append] at starts
      rw [← (List.cons.inj starts).1]
      have solid : p.solid = true := by
        by_contra hollow
        exact none (paired.hollow p List.mem_cons_self (by simpa using hollow))
      exact List.mem_append_left _
        (start_mem_addressRun p.tag (paired.solid p List.mem_cons_self solid))

theorem Paired.nodup_second (paired : Paired parts) (apart : 0 < size) :
    (layOut size PagedPart.second parts).Nodup := by
  induction parts with
  | nil => exact List.nodup_nil
  | cons p parts ih =>
    rw [layOut_cons]
    refine List.nodup_append.mpr ⟨nodup_addressRun p.tag apart, ih paired.tail, ?_⟩
    rintro x here y there rfl
    obtain ⟨q, member, solid, tag⟩ := paired.tail.solid_of_mem there
    have tags := (List.pairwise_cons.mp paired.tags).1 q member
    cases hollow : p.solid with
    | true => exact tags hollow solid ((tag_of_mem_addressRun here).symm.trans tag.symm)
    | false =>
      rw [paired.hollow p List.mem_cons_self hollow] at here
      cases here

/-- The first counting does not give a part more than the second if the layouts are to agree. -/
theorem Paired.first_le (paired : Paired (p :: parts)) (apart : 0 < size)
    (same : layOut size PagedPart.first (p :: parts) = layOut size PagedPart.second (p :: parts)) :
    p.first ≤ p.second := by
  by_contra more
  obtain ⟨k, count⟩ := Nat.exists_eq_add_of_lt (Nat.not_le.mp more)
  rw [layOut_cons, layOut_cons, count, Nat.add_assoc, addressRun_add, List.append_assoc] at same
  have rest := List.append_cancel_left same
  rw [addressRun_succ, List.cons_append] at rest
  cases solid : p.solid with
  | true =>
    -- the address is one of a later part, which has another tag
    obtain ⟨q, member, solid', tag⟩ := paired.tail.solid_of_mem (rest ▸ List.mem_cons_self)
    exact (List.pairwise_cons.mp paired.tags).1 q member solid solid' tag.symm
  | false =>
    -- the address is the start of a later part, whose run has it once more
    have again := paired.tail.head_mem rest.symm
    have twice := paired.tail.nodup_second apart
    rw [← rest] at twice
    exact (List.nodup_cons.mp twice).1 (List.mem_append_right _ again)

/-- Two layouts are the same just if the parts are in step. -/
theorem inStep_iff (apart : 0 < size) {pending : Option (Nat × τ)} (paired : Paired parts)
    (other : ∀ x ∈ pending, ∀ p ∈ parts, p.solid = true → p.tag ≠ x.2) :
    layOut size PagedPart.first parts = pending.toList ++ layOut size PagedPart.second parts ↔
      InStep size pending parts := by
  induction parts generalizing pending with
  | nil =>
    cases pending with
    | none => exact iff_of_true rfl trivial
    | some x => exact iff_of_false (fun same => nomatch same) id
  | cons p parts ih =>
    rw [layOut_cons, layOut_cons]
    cases pending with
    | none =>
      rw [InStep, Option.toList_none, List.nil_append]
      by_cases equal : p.first = p.second
      · rw [if_pos equal, equal, List.append_cancel_left_eq]
        exact @ih none paired.tail (by simp)
      · rw [if_neg equal]
        have page : p.second = p.first + 1 → (addressRun size p.start p.first p.tag ++
              layOut size PagedPart.first parts =
            addressRun size p.start p.second p.tag ++ layOut size PagedPart.second parts ↔
            InStep size (some (p.start + p.first * size, p.tag)) parts) := by
          intro more
          rw [more, addressRun_add, addressRun_one, List.append_assoc, List.append_cancel_left_eq]
          refine @ih (some _) paired.tail ?_
          intro x here q member solid'
          obtain rfl := Option.some.inj here
          have solid : p.solid = true := by
            by_contra hollow
            have zero := paired.hollow p List.mem_cons_self (by simpa using hollow)
            omega
          exact ((List.pairwise_cons.mp paired.tags).1 q member solid solid').symm
        constructor
        · intro same
          have le := paired.first_le apart (by rw [layOut_cons, layOut_cons, same])
          have ge := paired.second_le p List.mem_cons_self
          have more : p.second = p.first + 1 := by omega
          exact ⟨more, (page more).mp same⟩
        · rintro ⟨more, rest⟩
          exact (page more).mpr rest
    | some x =>
      rw [InStep, Option.toList_some, List.singleton_append]
      by_cases none : p.first = 0
      · have hollow : p.solid = false := by
          by_contra solid
          have pos := paired.solid p List.mem_cons_self (by simpa using solid)
          omega
        rw [if_pos none, none, paired.hollow p List.mem_cons_self hollow]
        exact @ih (some x) paired.tail fun y here q member =>
          other y here q (List.mem_cons_of_mem p member)
      · rw [if_neg none]
        have tail := @ih Option.none paired.tail (by simp)
        rw [Option.toList_none, List.nil_append] at tail
        obtain ⟨n, count⟩ := Nat.exists_eq_succ_of_ne_zero none
        constructor
        · intro same
          rw [count, addressRun_succ, List.cons_append] at same
          obtain ⟨rfl, rest⟩ := List.cons.inj same
          have hollow : p.solid = false := by
            by_contra solid
            exact other _ rfl p List.mem_cons_self (by simpa using solid) rfl
          rw [paired.hollow p List.mem_cons_self hollow, addressRun_zero, List.nil_append] at rest
          cases n with
          | zero => exact ⟨hollow, count, rfl, tail.mp rest⟩
          | succ k =>
            -- a second address would be one of a later part, which has another tag
            rw [addressRun_succ, List.cons_append] at rest
            obtain ⟨q, member, solid, tag⟩ :=
              paired.tail.solid_of_mem (rest ▸ List.mem_cons_self)
            exact absurd tag (other _ rfl q (List.mem_cons_of_mem p member) solid)
        · rintro ⟨hollow, one, rfl, rest⟩
          rw [one, addressRun_succ, paired.hollow p List.mem_cons_self hollow, tail.mpr rest]
          rfl

end Parts

end SandboxTEE.Lib
