import Mathlib.Data.List.TakeWhile
import Mathlib.Tactic.Basic

/-!
# `Lib.DecimalText` — decimal numbers and their text

A finite decimal is a sign, a coefficient and an exponent of ten, and its text keeps all three: trailing zeros are
written. `str` writes a decimal as decimal arithmetic does (plain digits with a point as long as there are few zeros
after it, and an exponent otherwise), and `parse` reads any sign, digits with an optional point, and exponent.

* `parse_str` — what was written is read back, with its trailing zeros.
-/

/-- `(-1) ^ negative * coefficient * 10 ^ exponent` -/
structure Decimal where
  negative : Bool
  coefficient : Nat
  exponent : Int
  deriving DecidableEq, Repr

namespace Decimal

/-! ## Reading -/

/-- A sign; is it a minus? -/
def sign : List Char → Bool × List Char
  | '-' :: rest => (true, rest)
  | '+' :: rest => (false, rest)
  | rest => (false, rest)

/-- The digits at the front, and what follows them. -/
def digits (cs : List Char) : List Char × List Char := (cs.takeWhile Char.isDigit, cs.dropWhile Char.isDigit)

/-- The point with its digits, if there is one. -/
def fraction : List Char → List Char × List Char
  | '.' :: rest => digits rest
  | rest => ([], rest)

/-- An optional sign and digits, to the end of the text. -/
def integer (cs : List Char) : Option Int :=
  match sign cs with
  | (negative, rest) =>
    if rest ≠ [] ∧ rest.all Char.isDigit then
      let n := Nat.ofDigitChars 10 rest 0
      some (if negative then -(n : Int) else n)
    else none

/-- The exponent part; there is none at the end of the text. -/
def power : List Char → Option Int
  | [] => some 0
  | c :: rest => if c = 'E' ∨ c = 'e' then integer rest else none

def parse (cs : List Char) : Option Decimal :=
  match sign cs with
  | (negative, rest) =>
    match digits rest with
    | (whole, rest) =>
      match fraction rest with
      | (after, rest) =>
        if whole ++ after = [] then none
        else (power rest).map fun e => ⟨negative, Nat.ofDigitChars 10 (whole ++ after) 0, e - after.length⟩

/-! ## Writing -/

/-- `str` of an integer -/
def of_int (n : Int) : List Char := if n < 0 then '-' :: Nat.toDigits 10 n.natAbs else Nat.toDigits 10 n.natAbs

/-- `"%+d"` -/
def signed (n : Int) : List Char := (if n < 0 then '-' else '+') :: Nat.toDigits 10 n.natAbs

/-- The number of digits before the point if the exponent is written into the digits. -/
def leftdigits (d : Decimal) : Int := d.exponent + (Nat.toDigits 10 d.coefficient).length

/-- The number of digits before the point. -/
def dotplace (d : Decimal) : Int := if d.exponent ≤ 0 ∧ -6 < d.leftdigits then d.leftdigits else 1

/-- The digits before and after the point. -/
def parts (d : Decimal) : List Char × List Char :=
  let int := Nat.toDigits 10 d.coefficient
  if d.dotplace ≤ 0 then (['0'], List.replicate (-d.dotplace).toNat '0' ++ int)
  else if int.length ≤ d.dotplace then (int ++ List.replicate (d.dotplace - int.length).toNat '0', [])
  else (int.take d.dotplace.toNat, int.drop d.dotplace.toNat)

/-- The exponent that is written. -/
def exponent_text (d : Decimal) : List Char :=
  if d.leftdigits = d.dotplace then [] else 'E' :: signed (d.leftdigits - d.dotplace)

def str (d : Decimal) : List Char :=
  (if d.negative then ['-'] else []) ++ (d.parts.1 ++ ((if d.parts.2 = [] then [] else '.' :: d.parts.2) ++ d.exponent_text))

example : (⟨false, 1050, -2⟩ : Decimal).str = "10.50".toList := by decide +kernel

example : (⟨true, 1050, 3⟩ : Decimal).str = "-1.050E+6".toList := by decide +kernel

example : (⟨false, 5, -4⟩ : Decimal).str = "0.0005".toList := by decide +kernel

/-! ## Digits -/

/-- The text does not go on with a digit. -/
def Stops (cs : List Char) : Prop := ∀ c ∈ cs.head?, c.isDigit = false

@[simp] theorem stops_nil : Stops [] := by
  intro c h
  cases h

@[simp] theorem stops_cons {c : Char} {cs : List Char} : Stops (c :: cs) ↔ c.isDigit = false := by
  simp [Stops]

theorem isDigit_toDigits {n : Nat} {c : Char} (h : c ∈ Nat.toDigits 10 n) : c.isDigit = true :=
  Nat.isDigit_of_mem_toDigits (by decide) (by decide) h

theorem digits_append {ds rest : List Char} (hds : ∀ c ∈ ds, c.isDigit = true) (hrest : Stops rest) :
    digits (ds ++ rest) = (ds, rest) := by
  have htake : rest.takeWhile Char.isDigit = [] := by
    cases rest with
    | nil => rfl
    | cons c rest => rw [List.takeWhile_cons_of_neg (by rw [stops_cons.mp hrest]; exact Bool.false_ne_true)]
  have hdrop : rest.dropWhile Char.isDigit = rest := by
    cases rest with
    | nil => rfl
    | cons c rest => rw [List.dropWhile_cons_of_neg (by rw [stops_cons.mp hrest]; exact Bool.false_ne_true)]
  rw [digits, List.takeWhile_append_of_pos hds, List.dropWhile_append_of_pos hds, htake, hdrop, List.append_nil]

/-- A digit is no sign. -/
theorem sign_of_digit {c : Char} {cs : List Char} (h : c.isDigit = true) : sign (c :: cs) = (false, c :: cs) := by
  unfold sign
  split
  · rename_i heq
    cases heq
    exact absurd h (by decide)
  · rename_i heq
    cases heq
    exact absurd h (by decide)
  · rfl

theorem sign_digits {ds rest : List Char} (hds : ∀ c ∈ ds, c.isDigit = true) (hne : ds ≠ []) :
    sign (ds ++ rest) = (false, ds ++ rest) := by
  cases ds with
  | nil => exact absurd rfl hne
  | cons c ds => exact sign_of_digit (hds c List.mem_cons_self)

theorem integer_digits (n : Nat) : integer (Nat.toDigits 10 n) = some (n : Int) := by
  have hsign : sign (Nat.toDigits 10 n ++ []) = (false, Nat.toDigits 10 n ++ []) :=
    sign_digits (fun c => isDigit_toDigits) Nat.toDigits_ne_nil
  rw [List.append_nil] at hsign
  rw [integer, hsign]
  have hall : (Nat.toDigits 10 n).all Char.isDigit = true := List.all_eq_true.mpr fun c => isDigit_toDigits
  simp [hall]

theorem integer_minus (n : Nat) : integer ('-' :: Nat.toDigits 10 n) = some (-(n : Int)) := by
  have hall : (Nat.toDigits 10 n).all Char.isDigit = true := List.all_eq_true.mpr fun c => isDigit_toDigits
  rw [integer, sign]
  simp [hall]

theorem integer_plus (n : Nat) : integer ('+' :: Nat.toDigits 10 n) = some (n : Int) := by
  have hall : (Nat.toDigits 10 n).all Char.isDigit = true := List.all_eq_true.mpr fun c => isDigit_toDigits
  rw [integer, sign]
  simp [hall]

/-- **An integer is read back.** -/
theorem integer_of_int (n : Int) : integer (of_int n) = some n := by
  unfold of_int
  split
  · rw [integer_minus]
    congr 1
    omega
  · rw [integer_digits]
    congr 1
    omega

theorem integer_signed (n : Int) : integer (signed n) = some n := by
  unfold signed
  split
  · rw [integer_minus]
    congr 1
    omega
  · rw [integer_plus]
    congr 1
    omega

/-! ## What was written is read back -/

section RoundTrip

variable (d : Decimal)

theorem length_digits_pos : 0 < (Nat.toDigits 10 d.coefficient).length := Nat.length_toDigits_pos

/-- The digits of the coefficient, with zeros before or after them. -/
theorem parts_digits : (∀ c ∈ d.parts.1, c.isDigit = true) ∧ (∀ c ∈ d.parts.2, c.isDigit = true) ∧ d.parts.1 ≠ [] := by
  have hzero : ∀ n, ∀ c ∈ List.replicate n '0', c.isDigit = true := by
    intro n c hc
    rw [List.eq_of_mem_replicate hc]
    rfl
  unfold parts
  dsimp only
  split
  · refine ⟨?_, ?_, List.cons_ne_nil _ _⟩
    · intro c hc
      rw [List.mem_singleton.mp hc]
      rfl
    · exact List.forall_mem_append.mpr ⟨hzero _, fun c => isDigit_toDigits⟩
  · rename_i hpos
    split
    · refine ⟨List.forall_mem_append.mpr ⟨fun c => isDigit_toDigits, hzero _⟩, ?_, ?_⟩
      · intro c hc
        cases hc
      · exact List.append_ne_nil_of_left_ne_nil Nat.toDigits_ne_nil _
    · refine ⟨fun c hc => isDigit_toDigits (List.take_subset _ _ hc), fun c hc => isDigit_toDigits (List.drop_subset _ _ hc), ?_⟩
      have hlen := d.length_digits_pos
      rw [← List.length_pos_iff, List.length_take]
      omega

/-- All the digits that are written: the coefficient, times ten for each zero after it. -/
theorem parts_value : Nat.ofDigitChars 10 (d.parts.1 ++ d.parts.2) 0 = d.coefficient ∧
    d.leftdigits - d.dotplace - d.parts.2.length = d.exponent := by
  have hplace : d.dotplace = d.leftdigits ∧ d.exponent ≤ 0 ∨ d.dotplace = 1 := by
    unfold dotplace
    split
    · rename_i h
      exact .inl ⟨rfl, h.1⟩
    · exact .inr rfl
  have hlen := d.length_digits_pos
  have hleft : d.leftdigits = d.exponent + (Nat.toDigits 10 d.coefficient).length := rfl
  unfold parts
  dsimp only
  split
  · -- zeros before the digits
    rw [Nat.ofDigitChars_append, Nat.ofDigitChars_append, Nat.ofDigitChars_replicate_zero, List.length_append,
      List.length_replicate]
    have hstart : Nat.ofDigitChars 10 ['0'] 0 = 0 := rfl
    rw [hstart, Nat.mul_zero, Nat.ofDigitChars_ten_toDigits]
    exact ⟨rfl, by omega⟩
  · split
    · -- no zeros are written after the digits
      have hnone : (d.dotplace - (Nat.toDigits 10 d.coefficient).length).toNat = 0 := by omega
      rw [hnone, List.replicate_zero, List.append_nil, List.append_nil, Nat.ofDigitChars_ten_toDigits]
      refine ⟨rfl, ?_⟩
      simp only [List.length_nil]
      omega
    · rw [List.take_append_drop, Nat.ofDigitChars_ten_toDigits, List.length_drop]
      exact ⟨rfl, by omega⟩

theorem power_exponent_text : power d.exponent_text = some (d.leftdigits - d.dotplace) := by
  unfold exponent_text
  split
  · rename_i h
    rw [h, Int.sub_self]
    rfl
  · rw [power, if_pos (.inl rfl), integer_signed]

theorem stops_exponent_text : Stops d.exponent_text := by
  unfold exponent_text
  split
  · exact stops_nil
  · exact stops_cons.mpr rfl

/-- The point and the digits after it. -/
theorem fraction_parts : Stops ((if d.parts.2 = [] then [] else '.' :: d.parts.2) ++ d.exponent_text) ∧
    fraction ((if d.parts.2 = [] then [] else '.' :: d.parts.2) ++ d.exponent_text) = (d.parts.2, d.exponent_text) := by
  split
  · rename_i hnil
    rw [hnil, List.nil_append]
    refine ⟨d.stops_exponent_text, ?_⟩
    -- the exponent does not begin with a point
    unfold exponent_text
    split <;> rfl
  · refine ⟨stops_cons.mpr rfl, ?_⟩
    exact digits_append d.parts_digits.2.1 d.stops_exponent_text

/-- **What was written is read back.** -/
theorem parse_str : parse d.str = some d := by
  obtain ⟨hwhole, -, hne⟩ := d.parts_digits
  obtain ⟨hvalue, hexponent⟩ := d.parts_value
  obtain ⟨hstops, hfraction⟩ := d.fraction_parts
  have hsign : sign d.str = (d.negative, d.parts.1 ++
      ((if d.parts.2 = [] then [] else '.' :: d.parts.2) ++ d.exponent_text)) := by
    unfold str
    cases d.negative with
    | true => rfl
    | false =>
        rw [if_neg Bool.false_ne_true, List.nil_append]
        exact sign_digits hwhole hne
  rw [parse, hsign]
  simp only [digits_append hwhole hstops, hfraction, power_exponent_text, hvalue, hexponent, Option.map_some]
  rw [if_neg (List.append_ne_nil_of_left_ne_nil hne _)]

/-- What may stand in the text of a decimal. -/
def IsText (c : Char) : Prop := c.isDigit = true ∨ c ∈ ['-', '+', '.', 'E']

theorem exponent_text_chars : ∀ c ∈ d.exponent_text, IsText c := by
  have hsigned : ∀ n, ∀ c ∈ signed n, IsText c := by
    intro n c hc
    rcases List.mem_cons.mp hc with rfl | hc
    · right
      split <;> decide
    · exact .inl (isDigit_toDigits hc)
  unfold exponent_text
  split
  · intro c hc
    cases hc
  · intro c hc
    rcases List.mem_cons.mp hc with rfl | hc
    · exact .inr (by decide)
    · exact hsigned _ c hc

theorem str_chars : ∀ c ∈ d.str, IsText c := by
  obtain ⟨hwhole, hafter, -⟩ := d.parts_digits
  unfold str
  refine List.forall_mem_append.mpr ⟨?_, List.forall_mem_append.mpr ⟨fun c hc => .inl (hwhole c hc),
    List.forall_mem_append.mpr ⟨?_, d.exponent_text_chars⟩⟩⟩
  · cases d.negative with
    | true =>
        intro c hc
        rw [List.mem_singleton.mp hc]
        exact .inr (by decide)
    | false =>
        intro c hc
        cases hc
  · split
    · intro c hc
      cases hc
    · intro c hc
      rcases List.mem_cons.mp hc with rfl | hc
      · exact .inr (by decide)
      · exact .inl (hafter c hc)

end RoundTrip

end Decimal
