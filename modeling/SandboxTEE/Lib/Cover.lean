import Mathlib.Data.List.Flatten
import Mathlib.Data.List.Perm.Basic

/-! # Partial maps given by a list of pieces

A piece covers some keys and gives each of them a value.  A list of pieces
denotes a partial map: the first piece that covers a key gives its value.  When
no two pieces overlap the order of the list does not matter, and cutting each
piece into smaller ones acts on the map key by key.
-/

namespace SandboxTEE.Lib

/-- How a piece of type `ε` covers keys `κ` and what value it gives them. -/
structure Cover (ε κ V : Type) where
  covers : ε → κ → Bool
  value : ε → κ → V

namespace Cover

variable {ε κ V : Type} (C : Cover ε κ V)

/-- The partial map a list of pieces denotes. -/
def denote (l : List ε) (k : κ) : Option V :=
  (l.find? fun e => C.covers e k).map fun e => C.value e k

/-- The two pieces share no key. -/
def Apart (e f : ε) : Prop := ∀ k, ¬ (C.covers e k = true ∧ C.covers f k = true)

/-- No two pieces of the list overlap. -/
def Separate (l : List ε) : Prop := l.Pairwise C.Apart

variable {C}

theorem Apart.symm {e f : ε} (h : C.Apart e f) : C.Apart f e := fun k both => h k both.symm

@[simp] theorem denote_nil (k : κ) : C.denote [] k = none := rfl

theorem denote_cons (e : ε) (l : List ε) (k : κ) :
    C.denote (e :: l) k = if C.covers e k = true then some (C.value e k) else C.denote l k := by
  unfold denote
  by_cases h : C.covers e k = true
  · rw [List.find?_cons_of_pos (p := fun e => C.covers e k) h, if_pos h, Option.map_some]
  · rw [List.find?_cons_of_neg (p := fun e => C.covers e k) h, if_neg h]

variable {l : List ε} {k : κ}

theorem denote_eq_none_iff : C.denote l k = none ↔ ∀ e ∈ l, ¬ C.covers e k = true := by
  rw [denote, Option.map_eq_none_iff, List.find?_eq_none]

/-- Over separate pieces the value at a key is that of any piece covering it. -/
theorem denote_eq_some_iff (sep : C.Separate l) {v : V} :
    C.denote l k = some v ↔ ∃ e ∈ l, C.covers e k = true ∧ C.value e k = v := by
  induction l with
  | nil => simp
  | cons e l ih =>
    obtain ⟨apart, sep⟩ := List.pairwise_cons.mp sep
    rw [denote_cons]
    by_cases h : C.covers e k = true
    · rw [if_pos h]
      constructor
      · intro eq
        exact ⟨e, List.mem_cons_self, h, Option.some.inj eq⟩
      · rintro ⟨f, hf, hcov, rfl⟩
        rcases List.mem_cons.mp hf with rfl | hf
        · rfl
        · exact absurd ⟨h, hcov⟩ (apart f hf k)
    · rw [if_neg h, ih sep]
      constructor
      · rintro ⟨f, hf, hcov, rfl⟩
        exact ⟨f, List.mem_cons_of_mem _ hf, hcov, rfl⟩
      · rintro ⟨f, hf, hcov, rfl⟩
        rcases List.mem_cons.mp hf with rfl | hf
        · exact absurd hcov h
        · exact ⟨f, hf, hcov, rfl⟩

variable {l' : List ε}

theorem Separate.perm (sep : C.Separate l) (h : l.Perm l') : C.Separate l' :=
  (h.pairwise_iff fun apart => Apart.symm apart).mp sep

/-- The order of separate pieces does not matter. -/
theorem denote_perm (sep : C.Separate l) (h : l.Perm l') : C.denote l = C.denote l' := by
  funext k
  ext v
  rw [denote_eq_some_iff sep, denote_eq_some_iff (sep.perm h)]
  constructor
  · rintro ⟨e, he, rest⟩
    exact ⟨e, h.mem_iff.mp he, rest⟩
  · rintro ⟨e, he, rest⟩
    exact ⟨e, h.mem_iff.mpr he, rest⟩

variable {f : ε → List ε}

/-- Cutting separate pieces leaves separate pieces. -/
theorem Separate.flatMap (sep : C.Separate l) (inner : ∀ e ∈ l, C.Separate (f e))
    (sub : ∀ e ∈ l, ∀ t ∈ f e, ∀ k, C.covers t k = true → C.covers e k = true) :
    C.Separate (l.flatMap f) := by
  refine List.pairwise_flatMap.mpr ⟨inner, ?_⟩
  refine List.Pairwise.imp_of_mem (fun {e e'} he he' apart => ?_) sep
  intro t ht t' ht' k both
  exact apart k ⟨sub e he t ht k both.1, sub e' he' t' ht' k both.2⟩

/-- Replacing each piece by others that cover the same keys, with values changed (or
    dropped) by `g`, changes the denoted map by `g`. -/
theorem denote_flatMap {g : κ → V → Option V} (sep : C.Separate l) (sep' : C.Separate (l.flatMap f))
    (pieces : ∀ e ∈ l, ∀ k v, (∃ t ∈ f e, C.covers t k = true ∧ C.value t k = v) ↔
      C.covers e k = true ∧ g k (C.value e k) = some v) (k : κ) :
    C.denote (l.flatMap f) k = (C.denote l k).bind (g k) := by
  ext v
  rw [denote_eq_some_iff sep', Option.bind_eq_some_iff]
  constructor
  · rintro ⟨t, ht, hcov, hval⟩
    obtain ⟨e, he, hte⟩ := List.mem_flatMap.mp ht
    obtain ⟨hcov', hg⟩ := (pieces e he k v).mp ⟨t, hte, hcov, hval⟩
    exact ⟨C.value e k, (denote_eq_some_iff sep).mpr ⟨e, he, hcov', rfl⟩, hg⟩
  · rintro ⟨w, hw, hg⟩
    obtain ⟨e, he, hcov, rfl⟩ := (denote_eq_some_iff sep).mp hw
    obtain ⟨t, ht, hcov', hval⟩ := (pieces e he k v).mpr ⟨hcov, hg⟩
    exact ⟨t, List.mem_flatMap.mpr ⟨e, he, ht⟩, hcov', hval⟩

end Cover

end SandboxTEE.Lib
