import CompanyFactory.EventStore.Store
import CompanyFactory.Lib.Calendar
import CompanyFactory.Lib.FixedText
import Mathlib.Data.Int.ConditionallyCompleteOrder
import Mathlib.Data.List.Lex
import Mathlib.Data.String.Basic
import Mathlib.Order.ConditionallyCompleteLattice.Basic
import Mathlib.Order.Monotone.Basic

/-!
# `Clock.Isoformat` — datetimes and their text

A `datetime` in UTC. Two of them are compared field by field, from the year down to the microseconds. `isoformat` writes
the fraction of the second only if it is not zero, so that the texts have two lengths.

* `isoformat_strictMono` — **the texts are in the order of the datetimes**: where one text ends its seconds with the `+` of
  the offset and the other goes on with a point, the `+` is the smaller character.
* `micros_strictMono` — and so are the microseconds that `Time` counts.
-/

namespace CompanyFactory

/-- A `datetime` with the time zone UTC. -/
structure UtcDatetime where
  year : Nat
  month : Nat
  day : Nat
  hour : Nat
  minute : Nat
  second : Nat
  microsecond : Nat
  date_ok : Calendar.OnCalendar year month day
  year_le : year ≤ 9999
  hour_lt : hour < 24
  minute_lt : minute < 60
  second_lt : second < 60
  microsecond_lt : microsecond < 1000000

namespace UtcDatetime

/-- The fields down to the seconds. -/
def clock (d : UtcDatetime) : List Nat := [d.year, d.month, d.day, d.hour, d.minute, d.second]

/-- What two datetimes are compared by. -/
def fields (d : UtcDatetime) : List Nat := d.clock ++ [d.microsecond]

theorem fields_injective : Function.Injective fields := by
  rintro ⟨⟩ ⟨⟩ h
  simp [fields, clock] at h
  simp [h]

instance : LinearOrder UtcDatetime := LinearOrder.lift' fields fields_injective

theorem lt_def {d e : UtcDatetime} : d < e ↔ d.fields < e.fields := Iff.rfl

/-- `%04d-%02d-%02dT%02d:%02d:%02d` -/
def columns : List (Nat × List Char) := [(4, ['-']), (2, ['-']), (2, ['T']), (2, [':']), (2, [':']), (2, [])]

/-- `.%06d`, if there are microseconds. -/
def fraction (microsecond : Nat) : List Char :=
  if microsecond = 0 then [] else '.' :: FixedText.padded 6 microsecond

def utc_offset : List Char := ['+', '0', '0', ':', '0', '0']

def isoformat (d : UtcDatetime) : String :=
  String.ofList (FixedText.render columns d.clock ++ (fraction d.microsecond ++ utc_offset))

/-- The microseconds since the day before the first of January of the year 1. -/
def micros (d : UtcDatetime) : Time :=
  ((((Calendar.ordinal d.year d.month d.day * 24 + d.hour) * 60 + d.minute) * 60 + d.second) * 1000000 +
    d.microsecond : Nat)

/-! ## The order -/

/-- The first field that differs. -/
theorem lt_cases {d e : UtcDatetime} (h : d < e) :
    d.clock < e.clock ∨ d.clock = e.clock ∧ d.microsecond < e.microsecond := by
  have hlength : d.clock.length = e.clock.length := rfl
  rcases FixedText.lt_or_eq_of_append_lt hlength (lt_def.mp h) with hclock | ⟨hclock, hlast⟩
  · exact .inl hclock
  · exact .inr ⟨hclock, (List.cons_lt_cons_iff.mp hlast).resolve_right fun hnil => List.not_lt_nil [] hnil.2⟩

/-! ## The text -/

theorem days_in_month_le (year month : Nat) : Calendar.days_in_month year month ≤ 31 := by
  unfold Calendar.days_in_month
  split
  · split <;> decide
  all_goals decide

theorem clock_fits (d : UtcDatetime) : FixedText.Fits columns d.clock := by
  have hday := Nat.le_trans d.date_ok.day_ok.2 (days_in_month_le d.year d.month)
  have hyear := d.year_le
  have hmonth := d.date_ok.month_ok.2
  refine .cons ⟨by decide, Nat.lt_of_le_of_lt hyear (by decide)⟩ ?_
  refine .cons ⟨by decide, Nat.lt_of_le_of_lt hmonth (by decide)⟩ ?_
  refine .cons ⟨by decide, Nat.lt_of_le_of_lt hday (by decide)⟩ ?_
  refine .cons ⟨by decide, Nat.lt_trans d.hour_lt (by decide)⟩ ?_
  refine .cons ⟨by decide, Nat.lt_trans d.minute_lt (by decide)⟩ ?_
  exact .cons ⟨by decide, Nat.lt_trans d.second_lt (by decide)⟩ .nil

/-- The `+` of the offset comes before the point of a fraction. -/
theorem fraction_lt {n m : Nat} (h : n < m) (hm : m < 1000000) : fraction n ++ utc_offset < fraction m ++ utc_offset := by
  have hpoint : fraction m = '.' :: FixedText.padded 6 m := if_neg (Nat.ne_of_gt (Nat.zero_lt_of_lt h))
  rw [hpoint]
  by_cases hn : n = 0
  · subst hn
    exact .rel (by decide : '+' < '.')
  · have hlength : (FixedText.padded 6 n).length = (FixedText.padded 6 m).length := by
      rw [FixedText.length_padded (by decide) (Nat.lt_trans h hm), FixedText.length_padded (by decide) hm]
    rw [fraction, if_neg hn]
    exact .cons (FixedText.append_lt_append hlength (FixedText.padded_lt (by decide) h hm) _ _)

theorem isoformat_strictMono : StrictMono isoformat := by
  intro d e h
  rw [String.lt_iff_toList_lt, isoformat, isoformat, String.toList_ofList, String.toList_ofList]
  refine FixedText.render_lt d.clock_fits e.clock_fits ?_
  rcases lt_cases h with hclock | ⟨hclock, hlt⟩
  · exact .inl hclock
  · exact .inr ⟨hclock, fraction_lt hlt e.microsecond_lt⟩

theorem isDigit_ascii {c : Char} (h : c.isDigit = true) : c.toNat < 128 := by
  obtain ⟨-, h⟩ := Char.isDigit_iff_toNat.mp h
  exact Nat.lt_of_le_of_lt h (by decide)

theorem isoformat_ascii (d : UtcDatetime) : ∀ c ∈ d.isoformat.toList, c.toNat < 128 := by
  intro c hc
  rw [isoformat, String.toList_ofList] at hc
  rcases List.mem_append.mp hc with hclock | hend
  · rcases FixedText.mem_render hclock with hdigit | ⟨column, hcolumn, hc⟩
    · exact isDigit_ascii hdigit
    · have hseparators : columns.all (fun column => column.2.all fun c => decide (c.toNat < 128)) = true := by decide
      exact of_decide_eq_true (List.all_eq_true.mp (List.all_eq_true.mp hseparators column hcolumn) c hc)
  · rcases List.mem_append.mp hend with hfraction | hoffset
    · unfold fraction at hfraction
      split at hfraction
      · cases hfraction
      · rcases List.mem_cons.mp hfraction with rfl | hdigit
        · decide
        · exact isDigit_ascii (FixedText.isDigit_padded hdigit)
    · have hend : utc_offset.all (fun c => decide (c.toNat < 128)) = true := by decide
      exact of_decide_eq_true (List.all_eq_true.mp hend c hoffset)

/-! ## The microseconds -/

/-- The day is earlier, or the time is on the same day. -/
theorem clock_cases {d e : UtcDatetime} (h : d.clock < e.clock) :
    Calendar.ordinal d.year d.month d.day < Calendar.ordinal e.year e.month e.day ∨
      Calendar.ordinal d.year d.month d.day = Calendar.ordinal e.year e.month e.day ∧
        (d.hour < e.hour ∨ d.hour = e.hour ∧ (d.minute < e.minute ∨ d.minute = e.minute ∧ d.second < e.second)) := by
  simp only [clock, List.cons_lt_cons_iff, List.not_lt_nil, and_false, or_false] at h
  have hdate := @Calendar.ordinal_lt _ _ _ _ _ _ d.date_ok e.date_ok
  rcases h with h | ⟨hyear, h | ⟨hmonth, h | ⟨hday, h⟩⟩⟩
  · exact .inl (hdate (.inl h))
  · exact .inl (hdate (.inr ⟨hyear, .inl h⟩))
  · exact .inl (hdate (.inr ⟨hyear, .inr ⟨hmonth, h⟩⟩))
  · exact .inr ⟨by rw [hyear, hmonth, hday], h⟩

theorem micros_strictMono : StrictMono micros := by
  intro d e h
  refine Int.ofNat_lt.mpr ?_
  have hhour := d.hour_lt
  have hminute := d.minute_lt
  have hsecond := d.second_lt
  have hmicrosecond := d.microsecond_lt
  rcases lt_cases h with hclock | ⟨hclock, hlt⟩
  · rcases clock_cases hclock with hday | ⟨hday, htime⟩
    · omega
    · omega
  · obtain ⟨hyear, hmonth, hday, hhour', hminute', hsecond'⟩ : d.year = e.year ∧ d.month = e.month ∧ d.day = e.day ∧
        d.hour = e.hour ∧ d.minute = e.minute ∧ d.second = e.second := by simpa [clock] using hclock
    rw [hyear, hmonth, hday, hhour', hminute', hsecond']
    omega

/-- `datetime.min` -/
def min : UtcDatetime where
  year := 1
  month := 1
  day := 1
  hour := 0
  minute := 0
  second := 0
  microsecond := 0
  date_ok := ⟨by decide, by decide, by decide⟩
  year_le := by decide
  hour_lt := by decide
  minute_lt := by decide
  second_lt := by decide
  microsecond_lt := by decide

/-- `datetime.max` -/
def max : UtcDatetime where
  year := 9999
  month := 12
  day := 31
  hour := 23
  minute := 59
  second := 59
  microsecond := 999999
  date_ok := ⟨by decide, by decide, by decide⟩
  year_le := by decide
  hour_lt := by decide
  minute_lt := by decide
  second_lt := by decide
  microsecond_lt := by decide

/-- **Every time in the range is that of a datetime.** -/
theorem exists_micros {t : Time} (hmin : min.micros ≤ t) (hmax : t ≤ max.micros) : ∃ d : UtcDatetime, d.micros = t := by
  have hfirst : min.micros = 86400000000 := by decide
  rw [hfirst] at hmin
  obtain ⟨n, rfl⟩ := Int.eq_ofNat_of_zero_le (Int.le_trans (by decide) hmin)
  have hn : 86400000000 ≤ n := Int.ofNat_le.mp hmin
  obtain ⟨year, month, day, hdate, hday⟩ := Calendar.exists_date (n := n / 86400000000) (by omega)
  have hyear : year ≤ 9999 := by
    by_contra hlate
    -- the day would come after the last one
    have hlt := Calendar.ordinal_lt max.date_ok hdate (.inl (Nat.not_le.mp hlate))
    have hle : n ≤ ((((Calendar.ordinal max.year max.month max.day * 24 + 23) * 60 + 59) * 60 + 59) * 1000000 + 999999) :=
      Int.ofNat_le.mp hmax
    omega
  refine ⟨{ year, month, day
            hour := n / 3600000000 % 24, minute := n / 60000000 % 60, second := n / 1000000 % 60
            microsecond := n % 1000000, date_ok := hdate, year_le := hyear, hour_lt := Nat.mod_lt _ (by decide)
            minute_lt := Nat.mod_lt _ (by decide), second_lt := Nat.mod_lt _ (by decide)
            microsecond_lt := Nat.mod_lt _ (by decide) }, ?_⟩
  refine congrArg Int.ofNat ?_
  dsimp only
  rw [hday]
  omega

end UtcDatetime

end CompanyFactory
