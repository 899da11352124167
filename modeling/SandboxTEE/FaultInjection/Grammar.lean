import SandboxTEE.FaultInjection.Model

/-! # The documented grammar (`fault_injection.h`)

Configurations as the trees of the grammar, with the text and the schedule of each: what the
comment says, not what the parser does.  Numbers are written as in C.
-/

namespace SandboxTEE.FaultInjection

open SandboxTEE.Lib
open SandboxTEE.Stdlib

/-- `<digits>` -/
inductive Numeral where
  /-- The first digit is one more than `first`. -/
  | decimal (first : Fin 9) (rest : List (Fin 10))
  /-- Behind the `0`. -/
  | octal (rest : List (Fin 8))
  /-- Behind `0x` or `0X`; each digit is upper case or not. -/
  | hex (upper : Bool) (first : Bool × Fin 16) (rest : List (Bool × Fin 16))

namespace Numeral

def base : Numeral → Nat
  | decimal .. => 10
  | octal _ => 8
  | hex .. => 16

/-- The digits with their characters. -/
def digits : Numeral → List (Nat × Byte)
  | decimal first rest =>
    (first + 1, digitChar false (first + 1)) :: rest.map fun d : Fin 10 => (d.val, digitChar false d)
  | octal rest => (0, 48) :: rest.map fun d : Fin 8 => (d.val, digitChar false d)
  | hex _ first rest => (first :: rest).map fun d : Bool × Fin 16 => (d.2.val, digitChar d.1 d.2)

def text : Numeral → List Byte
  | hex upper first rest => 48 :: (if upper then 88 else 120) :: (hex upper first rest).digits.map Prod.snd
  | n => n.digits.map Prod.snd

def value (n : Numeral) : Nat := valueFrom n.base 0 (n.digits.map Prod.fst)

def IsHex : Numeral → Prop
  | hex .. => True
  | _ => False

end Numeral

/-- `<count>` -/
inductive Count where
  | digits (n : Numeral)
  | forever

namespace Count

def text : Count → List Byte
  | digits n => n.text
  | forever => [64]

def number : Count → Option Nat
  | digits n => some n.value
  | forever => none

def IsHex : Count → Prop
  | digits n => n.IsHex
  | forever => False

/-- The number fits, and the item takes part in the schedule. -/
def Sound : Count → Prop
  | digits n => 0 < n.value ∧ n.value ≤ ulongMax
  | forever => True

end Count

/-- `<pass_or_fail>` -/
inductive PassOrFail where
  | pass (count : Count)
  | fail (value : Option Numeral) (count : Option Count)

namespace PassOrFail

def text : PassOrFail → List Byte
  | pass count => 80 :: count.text
  | fail value count =>
    70 :: (value.elim [] Numeral.text ++ count.elim [] fun count => 47 :: count.text)

/-- What a call gets, `none` for passing through and a value for a fault, and how often. -/
def item : PassOrFail → Option Nat × Option Nat
  | pass count => (none, count.number)
  | fail value count => (some (value.elim 0 Numeral.value), count.elim (some 1) Count.number)

/-- The text ends in a hexadecimal number, which takes an `F` behind it for a digit. -/
def EndsInHex : PassOrFail → Prop
  | pass count => count.IsHex
  | fail value none => ∃ n, value = some n ∧ n.IsHex
  | fail _ (some count) => count.IsHex

def IsFail : PassOrFail → Prop
  | pass _ => False
  | fail .. => True

def Sound : PassOrFail → Prop
  | pass count => count.Sound
  | fail value count =>
    (∀ n, value = some n → n.value ≤ ulongMax) ∧ ∀ c, count = some c → c.Sound

end PassOrFail

/-- `<pass_or_fail_seq>`, of which the first item is given: each of the others comes behind a `+` or
    not. -/
def seqText (first : PassOrFail) : List (Bool × PassOrFail) → List Byte
  | [] => first.text
  | (plus, next) :: rest => first.text ++ ((if plus then [43] else []) ++ seqText next rest)

/-- An `F` stands directly behind a hexadecimal number nowhere. -/
def Separated (first : PassOrFail) : List (Bool × PassOrFail) → Prop
  | [] => True
  | (plus, next) :: rest =>
    (first.EndsInHex → next.IsFail → plus = true) ∧ Separated next rest

/-- `<site_name>=<fault_control_expression>` -/
structure Site where
  name : List Byte
  /-- `T`, not `G`. -/
  threadSpecific : Bool
  first : PassOrFail
  rest : List (Bool × PassOrFail)

namespace Site

def exprText (site : Site) : List Byte :=
  (if site.threadSpecific then 84 else 71) :: seqText site.first site.rest

def text (site : Site) : List Byte := site.name ++ 61 :: site.exprText

def items (site : Site) : List PassOrFail := site.first :: site.rest.map Prod.snd

/-- What call `k` at the site gets; behind the end it passes through. -/
def scheduled (site : Site) (k : Nat) : Option Nat :=
  (element (site.items.map PassOrFail.item) k).join

structure Sound (site : Site) : Prop where
  /-- No NUL, `=`, `,` or `:`. -/
  name : ∀ c ∈ site.name, c ≠ 0 ∧ c ≠ 61 ∧ c ≠ 44 ∧ c ≠ 58
  separated : Separated site.first site.rest
  items : ∀ item ∈ site.items, item.Sound

end Site

/-- Pairs separated by commas, where it is said so, or colons. -/
def configText : List (Site × Bool) → List Byte
  | [] => []
  | [(site, _)] => site.text
  | (site, comma) :: next :: rest =>
    site.text ++ (if comma then 44 else 58) :: configText (next :: rest)

end SandboxTEE.FaultInjection
