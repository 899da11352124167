import SandboxTEE.Stdlib.Scan

/-! # `strtoul` of the enclave's stdlib (`strchr.c`)

`ULONG_MAX` is `0xFFFFFFFF` there, although an `unsigned long` has 64 bits: a number that is larger
comes out as that.
-/

namespace SandboxTEE.Stdlib

def ulongMax : Nat := 0xFFFFFFFF

def isSpace (c : Byte) : Bool := c == 32 || c == 9

def isUpper (c : Byte) : Bool := 65 ≤ c && c ≤ 90

def isAlpha (c : Byte) : Bool := (97 ≤ c && c ≤ 122) || isUpper c

/-- What a character counts in the loop, `none` where it leaves the loop at once. -/
def digitOf (c : Byte) : Option Nat :=
  if isDigit c then some (c.toNat - 48)
  else if isAlpha c then some (c.toNat - if isUpper c then 65 - 10 else 97 - 10)
  else none

/-- The loop, from `acc` and `any` on, with the characters it leaves. -/
def digitLoop (base : Nat) : Nat → Int → List Byte → Nat × Int × List Byte
  | acc, any, [] => (acc, any, [])
  | acc, any, c :: s =>
    match digitOf c with
    | none => (acc, any, c :: s)
    | some d =>
      if base ≤ d then (acc, any, c :: s)
      else if any < 0 ∨ ulongMax / base < acc ∨ acc = ulongMax / base ∧ ulongMax % base < d then
        digitLoop base acc (-1) s
      else digitLoop base (acc * base + d) 1 s

/-- The sign, and what is behind it. -/
def signOf : List Byte → Bool × List Byte
  | 45 :: s => (true, s)
  | 43 :: s => (false, s)
  | s => (false, s)

/-- The base that the digits have, and the digits. -/
def baseOf (base : Nat) : List Byte → Nat × List Byte
  | 48 :: x :: s =>
    if (base = 0 ∨ base = 16) ∧ (x = 120 ∨ x = 88) then (16, s)
    else (if base = 0 then 8 else base, 48 :: x :: s)
  | s => (if base = 0 then if s.head? = some 48 then 8 else 10 else base, s)

/-- The number and `*endptr`. -/
def strtoul (nptr : List Byte) (base : Nat) : Nat × List Byte :=
  let (neg, s) := signOf (nptr.dropWhile isSpace)
  let (base, s) := baseOf base s
  let (acc, any, s) := digitLoop base 0 0 s
  let acc := if any < 0 then ulongMax else if neg then (2 ^ 64 - acc) % 2 ^ 64 else acc
  (acc, if any ≠ 0 then s else nptr)

/-! ## Digits -/

/-- The value of digits, from `acc` on. -/
def valueFrom (base acc : Nat) (digits : List Nat) : Nat :=
  digits.foldl (fun acc d => acc * base + d) acc

theorem le_valueFrom {base : Nat} (positive : 0 < base) : ∀ (digits : List Nat) (acc : Nat),
    acc ≤ valueFrom base acc digits
  | [], acc => Nat.le_refl acc
  | d :: digits, acc =>
    calc acc ≤ acc * base := Nat.le_mul_of_pos_right acc positive
      _ ≤ acc * base + d := Nat.le_add_right ..
      _ ≤ valueFrom base (acc * base + d) digits := le_valueFrom positive digits _

/-- The character of a digit below 36. -/
def digitChar (upper : Bool) (d : Nat) : Byte :=
  UInt8.ofNat (if d < 10 then 48 + d else if upper then 55 + d else 87 + d)

theorem digitOf_digitChar (upper : Bool) {d : Nat} (small : d < 16) :
    digitOf (digitChar upper d) = some d := by
  revert upper d
  decide

/-- No digit of the base is in front. -/
def Stops (base : Nat) (s : List Byte) : Prop := ∀ c d, s.head? = some c → digitOf c = some d → base ≤ d

theorem digitLoop_stops {base acc : Nat} {any : Int} {s : List Byte} (stops : Stops base s) :
    digitLoop base acc any s = (acc, any, s) := by
  cases s with
  | nil => rfl
  | cons c s =>
    rw [digitLoop]
    cases digit : digitOf c with
    | none => rfl
    | some d => exact if_pos (stops c d rfl digit)

/-- Another digit does not make the number too large. -/
theorem digit_fits {base acc d : Nat} (positive : 0 < base) (fits : acc * base + d ≤ ulongMax) :
    ¬ (ulongMax / base < acc ∨ acc = ulongMax / base ∧ ulongMax % base < d) := by
  have whole := Nat.div_add_mod ulongMax base
  rw [Nat.mul_comm] at whole
  rintro (large | ⟨equal, more⟩)
  · have next := Nat.mul_le_mul_right base (Nat.succ_le_of_lt large)
    have left := Nat.mod_lt ulongMax positive
    rw [Nat.succ_mul] at next
    omega
  · rw [equal] at fits
    omega

/-- Digits whose value fits are read up to where they stop. -/
theorem digitLoop_digits {base : Nat} (positive : 0 < base) {rest : List Byte}
    (stops : Stops base rest) : ∀ (digits : List (Nat × Byte)) (acc : Nat) (any : Int), 0 ≤ any →
    (∀ digit ∈ digits, digitOf digit.2 = some digit.1 ∧ digit.1 < base) →
    valueFrom base acc (digits.map Prod.fst) ≤ ulongMax →
    digitLoop base acc any (digits.map Prod.snd ++ rest) =
      (valueFrom base acc (digits.map Prod.fst), if digits = [] then any else 1, rest)
  | [], acc, any, _, _, _ => digitLoop_stops stops
  | (d, c) :: digits, acc, any, good, known, fits => by
    obtain ⟨digit, small⟩ := known (d, c) List.mem_cons_self
    have below : acc * base + d ≤ ulongMax :=
      (le_valueFrom positive (digits.map Prod.fst) _).trans fits
    have more := digitLoop_digits positive stops digits (acc * base + d) 1 (by decide)
      (fun digit member => known digit (List.mem_cons_of_mem _ member)) fits
    simp only [List.map_cons, List.cons_append, digitLoop, digit, Nat.not_le.mpr small,
      Int.not_lt.mpr good, digit_fits positive below, false_or, if_false, more, ite_self]
    rfl

end SandboxTEE.Stdlib
