import Mathlib.Data.List.Basic

/-! # Records written one after the other

A record takes up symbols on one stream and tokens on a second stream beside it.  When what a
record takes up determines it, the records at the front of the two streams are determined up to
the point where no further record can be read (`RecordFormat.Front.unique`).
-/

namespace SandboxTEE.Lib

/-- How records are written, with the fact that a record shows where it ends. -/
structure RecordFormat (δ β η : Type) where
  symbols : δ → List β
  tokens : δ → List η
  selfDelimiting : ∀ {d d' : δ} {bs bs' : List β} {hs hs' : List η},
    symbols d ++ bs = symbols d' ++ bs' → tokens d ++ hs = tokens d' ++ hs' →
      d = d' ∧ bs = bs' ∧ hs = hs'

namespace RecordFormat

variable {δ β η : Type} (F : RecordFormat δ β η)

/-- The streams start with the records `ds`, and `bs'` and `hs'` are behind them. -/
structure Front (bs : List β) (hs : List η) (ds : List δ) (bs' : List β) (hs' : List η) : Prop where
  symbols : bs = ds.flatMap F.symbols ++ bs'
  tokens : hs = ds.flatMap F.tokens ++ hs'

/-- No record can be read. -/
def Stuck (bs : List β) (hs : List η) : Prop :=
  ∀ d bs' hs', bs = F.symbols d ++ bs' → hs ≠ F.tokens d ++ hs'

variable {F} {bs bs' bs₁ bs₂ : List β} {hs hs' hs₁ hs₂ : List η} {d : δ} {ds ds' : List δ}

theorem Front.nil : F.Front bs hs [] bs hs := ⟨rfl, rfl⟩

theorem Front.cons (rest : F.Front bs hs ds bs' hs') :
    F.Front (F.symbols d ++ bs) (F.tokens d ++ hs) (d :: ds) bs' hs' where
  symbols := by rw [List.flatMap_cons, List.append_assoc, ← rest.symbols]
  tokens := by rw [List.flatMap_cons, List.append_assoc, ← rest.tokens]

/-- A reading that has come to its end goes on where a shorter one stopped. -/
theorem Front.extends (stuck : F.Stuck bs₂ hs₂) :
    ∀ {ds ds' : List δ} {bs : List β} {hs : List η}, F.Front bs hs ds bs₁ hs₁ →
      F.Front bs hs ds' bs₂ hs₂ → ∃ more, ds' = ds ++ more ∧ F.Front bs₁ hs₁ more bs₂ hs₂
  | [], ds', _, _, short, long => by
    have symbols := short.symbols
    have tokens := short.tokens
    simp only [List.flatMap_nil, List.nil_append] at symbols tokens
    exact ⟨ds', rfl, symbols ▸ tokens ▸ long⟩
  | d :: ds, [], bs, hs, short, long => by
    have symbols : bs = bs₂ := long.symbols
    have tokens : hs = hs₂ := long.tokens
    have front : bs₂ = F.symbols d ++ (ds.flatMap F.symbols ++ bs₁) := by
      rw [← symbols, short.symbols, List.flatMap_cons, List.append_assoc]
    have behind : hs₂ = F.tokens d ++ (ds.flatMap F.tokens ++ hs₁) := by
      rw [← tokens, short.tokens, List.flatMap_cons, List.append_assoc]
    exact absurd behind (stuck d _ _ front)
  | d :: ds, d' :: ds', bs, hs, short, long => by
    have symbols := short.symbols.symm.trans long.symbols
    have tokens := short.tokens.symm.trans long.tokens
    simp only [List.flatMap_cons, List.append_assoc] at symbols tokens
    obtain ⟨rfl, symbols, tokens⟩ := F.selfDelimiting symbols tokens
    have first : F.Front (ds.flatMap F.symbols ++ bs₁) (ds.flatMap F.tokens ++ hs₁) ds bs₁ hs₁ :=
      ⟨rfl, rfl⟩
    obtain ⟨more, rfl, rest⟩ := Front.extends stuck first ⟨symbols, tokens⟩
    exact ⟨more, rfl, rest⟩

theorem Stuck.front_eq_nil (stuck : F.Stuck bs hs) (front : F.Front bs hs ds bs' hs') :
    ds = [] := by
  cases ds with
  | nil => rfl
  | cons d ds =>
    have symbols := front.symbols
    have tokens := front.tokens
    rw [List.flatMap_cons, List.append_assoc] at symbols tokens
    exact absurd tokens (stuck d _ _ symbols)

/-- Two readings that have both come to their end are the same. -/
theorem Front.unique (first : F.Front bs hs ds bs₁ hs₁) (second : F.Front bs hs ds' bs₂ hs₂)
    (stuck : F.Stuck bs₁ hs₁) (stuck' : F.Stuck bs₂ hs₂) : ds = ds' ∧ bs₁ = bs₂ ∧ hs₁ = hs₂ := by
  obtain ⟨more, rfl, rest⟩ := first.extends stuck' second
  cases stuck.front_eq_nil rest
  exact ⟨(List.append_nil ds).symm, rest.symbols, rest.tokens⟩

end RecordFormat

end SandboxTEE.Lib
