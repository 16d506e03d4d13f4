import CompanyFactory.Cost.Budget
import Mathlib.Data.Rat.Floor

/-!
# `Cost.Amount` — amounts of money that are given as text

`Money.of` reads its text with `Decimal`, rounds to four places half up, and refuses what is negative. The
arithmetic context has 28 digits, so an amount of 10^24 dollars or more is an `InvalidOperation`, as are the
infinities and NaN. Of the digits that `Decimal` takes, only those of ASCII are modelled.
-/

namespace CompanyFactory

namespace Amount

/-- The longest prefix of digits: its value, how many digits it has, and the rest. -/
def digits (value count : Nat) : List Char → Nat × Nat × List Char
  | [] => (value, count, [])
  | c :: rest =>
    if c.isDigit then digits (10 * value + (c.toNat - '0'.toNat)) (count + 1) rest
    else (value, count, c :: rest)

/-- A sign, `1` if there is none. -/
def sign : List Char → Int × List Char
  | '-' :: rest => (-1, rest)
  | '+' :: rest => (1, rest)
  | rest => (1, rest)

/-- The exponent part, up to the end of the text. -/
def exponent : List Char → Option Int
  | [] => some 0
  | c :: rest =>
    if c = 'e' ∨ c = 'E' then
      let (s, rest) := sign rest
      match digits 0 0 rest with
      | (value, _ + 1, []) => some (s * value)
      | _ => none
    else none

/-- What `Decimal(text)` can be. -/
inductive Dec where
  | finite (q : Rat)
  | infinite
  | nan

/-- The names of the special values, in lower case. -/
def special (text : List Char) : Option Dec :=
  let name := String.ofList (text.map Char.toLower)
  if name = "inf" ∨ name = "infinity" then some .infinite
  else if name = "nan" ∨ name = "snan" then some .nan
  else none

/-- The digits with an optional point, and the exponent. -/
def number (text : List Char) : Option Rat :=
  match digits 0 0 text with
  | (whole, n, '.' :: rest) =>
    match digits whole 0 rest with
    | (value, k, rest) =>
      if n + k = 0 then none
      else (exponent rest).map (fun e => (value : Rat) * (10 : Rat) ^ (e - (k : Int)))
  | (value, n, rest) =>
    if n = 0 then none else (exponent rest).map (fun e => (value : Rat) * (10 : Rat) ^ e)

/-- `text.strip()` -/
def strip (text : List Char) : List Char :=
  ((text.dropWhile Char.isWhitespace).reverse.dropWhile Char.isWhitespace).reverse

/-- `Decimal(text)`: blanks around it and underscores do not count. -/
def parse (text : String) : Option Dec :=
  let (s, rest) := sign ((strip text.toList).filter (· ≠ '_'))
  match number rest with
  | some q => some (.finite (s * q))
  | none => special rest

/-- Round half up (away from zero) to an integer. -/
def round_half_up (q : Rat) : Int :=
  if 0 ≤ q then ⌊q + 1 / 2⌋ else -⌊-q + 1 / 2⌋

end Amount

/-- Why a text is no amount. -/
inductive AmountError where
  /-- `decimal.ConversionSyntax` -/
  | syntax_error
  /-- `decimal.InvalidOperation` -/
  | invalid_operation
  /-- the `ValueError` of `Money`, for this many units below zero -/
  | negative (units : Nat)
  deriving DecidableEq

/-- `Money.of` -/
def Money.of (text : String) : Except AmountError Money :=
  match Amount.parse text with
  | none => .error .syntax_error
  | some .infinite | some .nan => .error .invalid_operation
  | some (.finite q) =>
    let units := Amount.round_half_up (q * 10000)
    if 10 ^ 28 ≤ units.natAbs then .error .invalid_operation
    else if units < 0 then .error (.negative units.natAbs)
    else .ok ⟨units.toNat⟩

example : (Money.of "600.00").toOption = some ⟨6000000⟩ := by decide +kernel

example : (Money.of "1_0.00005e0").toOption = some ⟨100001⟩ := by decide +kernel

end CompanyFactory
