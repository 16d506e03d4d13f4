import Mathlib.Data.List.Range
import Mathlib.Tactic.Basic
import Mathlib.Algebra.GroupWithZero.Nat

/-!
# `Lib.Calendar` — the days of the proleptic Gregorian calendar

A day has a year, a month and a day of the month, and a number: the first of January of the year 1 is number 1.

* `ordinal_lt` — **the numbers are in the order of the dates**.
* `exists_date` — and every number is that of a date.
-/

namespace Calendar

def is_leap (year : Nat) : Bool := decide (year % 4 = 0) && (decide (year % 100 ≠ 0) || decide (year % 400 = 0))

/-- The days before the first of January of the year. -/
def days_before_year (year : Nat) : Nat :=
  let y := year - 1
  y * 365 + y / 4 - y / 100 + y / 400

def days_in_month (year : Nat) : Nat → Nat
  | 2 => if is_leap year then 29 else 28
  | 4 | 6 | 9 | 11 => 30
  | _ => 31

/-- The days of the year before the first of the month. -/
def days_before_month (year month : Nat) : Nat := ((List.range (month - 1)).map fun i => days_in_month year (i + 1)).sum

/-- The number of a day. -/
def ordinal (year month day : Nat) : Nat := days_before_year year + days_before_month year month + day

/-- The day is on the calendar. -/
structure OnCalendar (year month day : Nat) : Prop where
  year_pos : 0 < year
  month_ok : 1 ≤ month ∧ month ≤ 12
  day_ok : 1 ≤ day ∧ day ≤ days_in_month year month

theorem days_before_next_month {month : Nat} (hmonth : 0 < month) (year : Nat) :
    days_before_month year (month + 1) = days_before_month year month + days_in_month year month := by
  obtain ⟨m, rfl⟩ := Nat.exists_eq_succ_of_ne_zero (Nat.ne_of_gt hmonth)
  simp [days_before_month, List.range_succ]

/-- A month ends before every later one. -/
theorem days_before_month_le {month later : Nat} (hmonth : 0 < month) (h : month < later) (year : Nat) :
    days_before_month year month + days_in_month year month ≤ days_before_month year later := by
  induction h with
  | refl => rw [days_before_next_month hmonth]
  | step h ih =>
    rw [days_before_next_month (Nat.lt_trans hmonth h)]
    omega

theorem days_in_year (year : Nat) : days_before_month year 13 = if is_leap year then 366 else 365 := by
  cases h : is_leap year <;> simp [days_before_month, days_in_month, List.range_succ, h]

theorem is_leap_iff {year : Nat} : is_leap year = true ↔ year % 4 = 0 ∧ (year % 100 ≠ 0 ∨ year % 400 = 0) := by
  simp [is_leap]

/-- The length of a year, with its leap day. -/
theorem days_before_next_year {year : Nat} (hyear : 0 < year) :
    days_before_year (year + 1) = days_before_year year + if is_leap year then 366 else 365 := by
  obtain ⟨y, rfl⟩ := Nat.exists_eq_add_of_lt hyear
  simp only [days_before_year, is_leap_iff, Nat.zero_add, Nat.add_sub_cancel]
  have hle : y / 100 ≤ y * 365 + y / 4 := by omega
  -- the year divides by 4, by 100 and by 400, or not
  by_cases h4 : (y + 1) % 4 = 0
  · have hquarter : (y + 1) / 4 = y / 4 + 1 := by omega
    by_cases h100 : (y + 1) % 100 = 0
    · have hcentury : (y + 1) / 100 = y / 100 + 1 := by omega
      by_cases h400 : (y + 1) % 400 = 0
      · have hcycle : (y + 1) / 400 = y / 400 + 1 := by omega
        rw [hquarter, hcentury, hcycle, if_pos ⟨h4, .inr h400⟩]
        omega
      · have hcycle : (y + 1) / 400 = y / 400 := by omega
        rw [hquarter, hcentury, hcycle, if_neg fun h => h.2.elim (· h100) h400]
        omega
    · have hcentury : (y + 1) / 100 = y / 100 := by omega
      have hcycle : (y + 1) / 400 = y / 400 := by omega
      rw [hquarter, hcentury, hcycle, if_pos ⟨h4, .inl h100⟩]
      omega
  · have hquarter : (y + 1) / 4 = y / 4 := by omega
    have hcentury : (y + 1) / 100 = y / 100 := by omega
    have hcycle : (y + 1) / 400 = y / 400 := by omega
    rw [hquarter, hcentury, hcycle, if_neg fun h => h4 h.1]
    omega

theorem days_before_year_le {year later : Nat} (hyear : 0 < year) (h : year < later) :
    days_before_year year + days_before_month year 13 ≤ days_before_year later := by
  rw [days_in_year]
  induction h with
  | refl => rw [days_before_next_year hyear]
  | step h ih =>
    rw [days_before_next_year (Nat.lt_trans hyear h)]
    omega

/-- The day is in its year. -/
theorem OnCalendar.day_le {year month day : Nat} (h : OnCalendar year month day) :
    days_before_month year month + day ≤ days_before_month year 13 := by
  have hlast : month < 13 := Nat.lt_succ_of_le h.month_ok.2
  have hend := days_before_month_le h.month_ok.1 hlast year
  have hday := h.day_ok.2
  omega

/-- **Earlier days have smaller numbers.** -/
theorem ordinal_lt {year month day year' month' day' : Nat} (h : OnCalendar year month day)
    (h' : OnCalendar year' month' day')
    (hlt : year < year' ∨ year = year' ∧ (month < month' ∨ month = month' ∧ day < day')) :
    ordinal year month day < ordinal year' month' day' := by
  unfold ordinal
  rcases hlt with hlt | ⟨rfl, hlt | ⟨rfl, hlt⟩⟩
  · have hyears := days_before_year_le h.year_pos hlt
    have hday := h.day_le
    have hpos := h'.day_ok.1
    omega
  · have hmonths := days_before_month_le h.month_ok.1 hlt year
    have hday := h.day_ok.2
    have hpos := h'.day_ok.1
    omega
  · omega

/-- Every number is that of a day: the day after a day is in its month, in the next one, or in the next year. -/
theorem exists_date {n : Nat} (hn : 0 < n) : ∃ year month day, OnCalendar year month day ∧ ordinal year month day = n := by
  obtain ⟨k, rfl⟩ := Nat.exists_eq_add_of_lt hn
  clear hn
  induction k with
  | zero => exact ⟨1, 1, 1, ⟨by decide, by decide, by decide⟩, by decide⟩
  | succ k ih =>
    obtain ⟨year, month, day, h, hday⟩ := ih
    have hlength := h.day_ok.2
    by_cases hmonth : day < days_in_month year month
    · refine ⟨year, month, day + 1, ⟨h.year_pos, h.month_ok, Nat.succ_pos day, hmonth⟩, ?_⟩
      unfold ordinal at hday ⊢
      omega
    · have hfirst : ∀ y m, 1 ≤ days_in_month y m := by
        intro y m
        unfold days_in_month
        split
        · split <;> decide
        all_goals decide
      by_cases hyear : month < 12
      · have hnext := days_before_next_month h.month_ok.1 year
        refine ⟨year, month + 1, 1, ⟨h.year_pos, ⟨Nat.succ_pos month, hyear⟩, le_rfl, hfirst _ _⟩, ?_⟩
        unfold ordinal at hday ⊢
        omega
      · obtain rfl : month = 12 := Nat.le_antisymm h.month_ok.2 (Nat.not_lt.mp hyear)
        have hend : days_before_month year 13 = days_before_month year 12 + days_in_month year 12 :=
          days_before_next_month h.month_ok.1 year
        have hnext := days_before_next_year h.year_pos
        rw [← days_in_year] at hnext
        refine ⟨year + 1, 1, 1, ⟨Nat.succ_pos year, by decide, le_rfl, hfirst _ _⟩, ?_⟩
        have hzero : days_before_month (year + 1) 1 = 0 := rfl
        unfold ordinal at hday ⊢
        omega

end Calendar
