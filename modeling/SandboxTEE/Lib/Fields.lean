import Mathlib.Data.List.Basic

/-! # Splitting a list at a separator

`fields sep l` cuts `l` at every occurrence of `sep`; it always has at least one
field.  `tokens` drops the empty ones, which is what a scan that skips runs of
separators sees.
-/

namespace SandboxTEE.Lib

variable {α : Type} [DecidableEq α] (sep : α)

def fields : List α → List (List α)
  | [] => [[]]
  | a :: l =>
    if a = sep then [] :: fields l
    else
      match fields l with
      | [] => [[a]]
      | f :: fs => (a :: f) :: fs

/-- The non-empty fields. -/
def tokens (l : List α) : List (List α) := (fields sep l).filter fun f => f ≠ []

variable {sep}

theorem fields_ne_nil : ∀ l : List α, fields sep l ≠ []
  | [] => by simp [fields]
  | a :: l => by
    rw [fields]
    split
    · simp
    · split <;> simp

theorem fields_sep_cons (l : List α) : fields sep (sep :: l) = [] :: fields sep l := by
  rw [fields, if_pos rfl]

theorem fields_cons {a : α} (ne : a ≠ sep) {l f : List α} {fs : List (List α)}
    (h : fields sep l = f :: fs) : fields sep (a :: l) = (a :: f) :: fs := by
  rw [fields, if_neg ne, h]

theorem fields_of_not_mem : ∀ {l : List α}, sep ∉ l → fields sep l = [l]
  | [], _ => rfl
  | a :: l, h => by
    have ne : a ≠ sep := fun eq => h (eq ▸ List.mem_cons_self)
    exact fields_cons ne (fields_of_not_mem fun mem => h (List.mem_cons_of_mem a mem))

theorem fields_append_sep : ∀ l l' : List α,
    fields sep (l ++ sep :: l') = fields sep l ++ fields sep l'
  | [], l' => fields_sep_cons l'
  | a :: l, l' => by
    have ih := fields_append_sep l l'
    by_cases eq : a = sep
    · subst eq
      rw [List.cons_append, fields_sep_cons, fields_sep_cons, ih, List.cons_append]
    · obtain ⟨f, fs, h⟩ := List.exists_cons_of_ne_nil (@fields_ne_nil α _ sep l)
      rw [h, List.cons_append] at ih
      rw [List.cons_append, fields_cons eq ih, fields_cons eq h, List.cons_append]

@[simp] theorem tokens_nil : tokens sep ([] : List α) = [] := by simp [tokens, fields]

theorem tokens_sep_cons (l : List α) : tokens sep (sep :: l) = tokens sep l := by
  rw [tokens, fields_sep_cons, List.filter_cons_of_neg (by simp), tokens]

theorem tokens_append_sep (l l' : List α) :
    tokens sep (l ++ sep :: l') = tokens sep l ++ tokens sep l' := by
  rw [tokens, fields_append_sep, List.filter_append, tokens, tokens]

/-- A non-empty list without the separator is one token. -/
theorem tokens_of_not_mem {l : List α} (h : sep ∉ l) (ne : l ≠ []) : tokens sep l = [l] := by
  rw [tokens, fields_of_not_mem h, List.filter_cons_of_pos (by simpa using ne), List.filter_nil]

end SandboxTEE.Lib
