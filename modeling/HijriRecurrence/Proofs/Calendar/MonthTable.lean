import HijriRecurrence.Lunar.Arithmetic
import HijriRecurrence.Proofs.Lunar.Order
import HijriRecurrence.Proofs.Tabular.DayShift

/-!
# Month tables

A `MonthTable` says of months in a row at which day each of them starts.  Each is over after 29 or
30 days, and then the next one starts.  So days are numbered without gaps, in their order:

* `numberOf_lt_iff` — days of the table stand in the order of their numbers;
* `exists_numberOf` — each number from the first day to the last is the number of a day.

A calendar keeps a table (`Calendar.Keeps`) when it answers for its months and days as the table
says, whatever it does elsewhere.
-/

namespace HijriRecurrence

open LunarDate

/-- Day numbers at which months in a row start, each of 29 or 30 days.  Months are counted from
Muharram of year 1. -/
structure MonthTable where
  first : Int
  /-- The month after the last one. -/
  last : Int
  start : Int → Int
  first_nonneg : 0 ≤ first
  first_le : first ≤ last
  regular : ∀ month, first ≤ month → month < last →
    start (month + 1) = start month + 29 ∨ start (month + 1) = start month + 30

namespace MonthTable

variable {t : MonthTable} {a b d : LunarDay} {month later n : Int}

/-- The months of a table. -/
def Has (t : MonthTable) (month : Int) : Prop := t.first ≤ month ∧ month < t.last

def monthDays (t : MonthTable) (month : Int) : Int := t.start (month + 1) - t.start month

/-- The days of a table. -/
def IsDay (t : MonthTable) (d : LunarDay) : Prop :=
  (1 ≤ d.month ∧ d.month ≤ 12) ∧ t.Has (monthIndex d) ∧
    1 ≤ d.day ∧ d.day ≤ t.monthDays (monthIndex d)

def numberOf (t : MonthTable) (d : LunarDay) : Int := t.start (monthIndex d) + d.day - 1

/-- The numbers of the days of a table. -/
def HasNumber (t : MonthTable) (n : Int) : Prop := t.start t.first ≤ n ∧ n < t.start t.last

instance (t : MonthTable) (month : Int) : Decidable (t.Has month) := by
  unfold Has
  infer_instance

instance (t : MonthTable) (d : LunarDay) : Decidable (t.IsDay d) := by
  unfold IsDay
  infer_instance

instance (t : MonthTable) (n : Int) : Decidable (t.HasNumber n) := by
  unfold HasNumber
  infer_instance

theorem monthDays_bounds (h : t.Has month) : 29 ≤ t.monthDays month ∧ t.monthDays month ≤ 30 := by
  unfold monthDays
  rcases t.regular month h.1 h.2 with hlength | hlength <;> omega

/-- Months between two others are in the table with them. -/
theorem Has.between (h : t.Has month) (h' : t.Has later) (hn : month ≤ n ∧ n ≤ later) :
    t.Has n :=
  ⟨Int.le_trans h.1 hn.1, Int.lt_of_le_of_lt hn.2 h'.2⟩

theorem isDay_mk {year day : Int} (hm : 1 ≤ month ∧ month ≤ 12) :
    t.IsDay ⟨year, month, day⟩ ↔ t.Has ((year - 1) * 12 + (month - 1)) ∧
      1 ≤ day ∧ day ≤ t.monthDays ((year - 1) * 12 + (month - 1)) := by
  unfold IsDay
  exact and_iff_right hm

theorem IsDay.year_pos (h : t.IsDay d) : 1 ≤ d.year := by
  obtain ⟨hm, ⟨hfirst, -⟩, -⟩ := h
  have hnonneg := t.first_nonneg
  unfold monthIndex at hfirst
  omega

theorem IsDay.day_le (h : t.IsDay d) : d.day ≤ 30 := by
  have hlength := monthDays_bounds h.2.1
  have hday := h.2.2.2
  omega

/-! ### Starts of months -/

/-- Months start one after the other, 29 days apart at least. -/
theorem start_add_le (hfirst : t.first ≤ month) (hle : month ≤ later) (hlast : later ≤ t.last) :
    t.start month + 29 * (later - month) ≤ t.start later := by
  obtain ⟨steps, rfl⟩ := Int.le.dest hle
  induction steps with
  | zero => simp
  | succ steps ih =>
    have hbefore := ih (by omega) (by omega)
    have hstep := t.regular (month + steps) (by omega) (by omega)
    rw [Int.add_assoc] at hstep
    rw [Int.natCast_succ]
    omega

/-- A month is over before a later one starts. -/
theorem start_succ_le (h : t.Has month) (hlt : month < later) (hlast : later ≤ t.last) :
    t.start (month + 1) ≤ t.start later := by
  have hfirst : t.first ≤ month + 1 := Int.le_trans h.1 (by omega)
  have hle := start_add_le hfirst hlt hlast
  omega

/-! ### Numbers of days -/

theorem numberOf_bounds (h : t.IsDay d) :
    t.start (monthIndex d) ≤ t.numberOf d ∧ t.numberOf d < t.start (monthIndex d + 1) := by
  obtain ⟨-, -, hd, hd'⟩ := h
  unfold monthDays at hd'
  unfold numberOf
  omega

theorem hasNumber_numberOf (h : t.IsDay d) : t.HasNumber (t.numberOf d) := by
  obtain ⟨hlow, hhigh⟩ := numberOf_bounds h
  have hmonth := h.2.1
  have hfirst := start_add_le (t := t) (Int.le_refl _) hmonth.1 (Int.le_of_lt hmonth.2)
  have hlast := start_succ_le hmonth hmonth.2 (Int.le_refl _)
  have hnonneg := hmonth.1
  exact ⟨by omega, by omega⟩

/-- The order of days is that of their months and of the days of a month. -/
theorem lt_iff_of_months (ha : 1 ≤ a.month ∧ a.month ≤ 12) (hb : 1 ≤ b.month ∧ b.month ≤ 12) :
    a < b ↔ monthIndex a < monthIndex b ∨ monthIndex a = monthIndex b ∧ a.day < b.day := by
  rw [LunarDay.lt_def]
  unfold monthIndex
  omega

theorem numberOf_lt_of_lt (ha : t.IsDay a) (hb : t.IsDay b) (h : a < b) :
    t.numberOf a < t.numberOf b := by
  obtain ⟨-, haend⟩ := numberOf_bounds ha
  obtain ⟨hbstart, -⟩ := numberOf_bounds hb
  rcases (lt_iff_of_months ha.1 hb.1).1 h with hmonth | ⟨hmonth, hday⟩
  · have hle := start_succ_le ha.2.1 hmonth (Int.le_of_lt hb.2.1.2)
    omega
  · unfold numberOf
    rw [hmonth]
    omega

/-- **Days stand in the order of their numbers.** -/
theorem numberOf_lt_iff (ha : t.IsDay a) (hb : t.IsDay b) :
    t.numberOf a < t.numberOf b ↔ a < b := by
  refine ⟨fun hlt => ?_, numberOf_lt_of_lt ha hb⟩
  rcases LunarDay.lt_trichotomy a b with h | rfl | h
  · exact h
  · omega
  · have hgt := numberOf_lt_of_lt hb ha h
    omega

/-- A number between the starts of two months falls into one of the months. -/
theorem exists_month (hfirst : t.first ≤ month) (hle : month ≤ later) (hlast : later ≤ t.last)
    (hn : t.start month ≤ n ∧ n < t.start later) :
    ∃ k, t.Has k ∧ t.start k ≤ n ∧ n < t.start (k + 1) := by
  obtain ⟨steps, rfl⟩ := Int.le.dest hle
  induction steps with
  | zero => exact absurd hn (by simp)
  | succ steps ih =>
    rw [Int.natCast_succ, ← Int.add_assoc] at hn hlast
    by_cases hbefore : n < t.start (month + steps)
    · exact ih (by omega) (by omega) ⟨hn.1, hbefore⟩
    · exact ⟨month + steps, ⟨by omega, by omega⟩, by omega, hn.2⟩

/-- **Each number from the first day to the last is the number of a day.** -/
theorem exists_numberOf (h : t.HasNumber n) : ∃ d, t.IsDay d ∧ t.numberOf d = n := by
  obtain ⟨k, hk, hlow, hhigh⟩ := exists_month (Int.le_refl _) t.first_le (Int.le_refl _) h
  refine ⟨⟨k / 12 + 1, k % 12 + 1, n - t.start k + 1⟩, ?_, ?_⟩
  · rw [isDay_mk (by omega), show (k / 12 + 1 - 1) * 12 + (k % 12 + 1 - 1) = k by omega]
    unfold monthDays
    exact ⟨hk, by omega, by omega⟩
  · unfold numberOf monthIndex
    dsimp only
    rw [show (k / 12 + 1 - 1) * 12 + (k % 12 + 1 - 1) = k by omega]
    omega

/-- The first day of a month of the table is in it. -/
theorem isDay_first {year : Int} (hm : 1 ≤ month ∧ month ≤ 12)
    (h : t.Has ((year - 1) * 12 + (month - 1))) : t.IsDay ⟨year, month, 1⟩ := by
  have hlength := monthDays_bounds h
  exact (isDay_mk hm).2 ⟨h, by omega, by omega⟩

/-! ### Years -/

/-- All months of a year are in the table. -/
def HasYear (t : MonthTable) (year : Int) : Prop :=
  t.Has ((year - 1) * 12) ∧ t.Has ((year - 1) * 12 + 11)

/-- A table of whole years. -/
def WholeYears (t : MonthTable) : Prop := t.first % 12 = 0 ∧ t.last % 12 = 0

instance (t : MonthTable) : Decidable t.WholeYears := by
  unfold WholeYears
  infer_instance

theorem HasYear.has {year : Int} (h : t.HasYear year) (hm : 1 ≤ month ∧ month ≤ 12) :
    t.Has ((year - 1) * 12 + (month - 1)) :=
  h.1.between h.2 (by omega)

/-- With one month a table of whole years has the year. -/
theorem Has.hasYear {year : Int} (ht : t.WholeYears) (hm : 1 ≤ month ∧ month ≤ 12)
    (h : t.Has ((year - 1) * 12 + (month - 1))) : t.HasYear year := by
  obtain ⟨hfirst, hlast⟩ := ht
  obtain ⟨hlow, hhigh⟩ := h
  exact ⟨⟨by omega, by omega⟩, ⟨by omega, by omega⟩⟩

end MonthTable

/-! ### Calendars -/

/-- A calendar answers for the months and days of a table as the table says. -/
structure Calendar.Keeps (cal : Calendar) (answers : Answers) (t : MonthTable) : Prop where
  monthLength : ∀ year month, 1 ≤ month ∧ month ≤ 12 → t.Has ((year - 1) * 12 + (month - 1)) →
    (cal.monthLength year month).outcome answers =
      .ok (.whole (t.monthDays ((year - 1) * 12 + (month - 1))))
  yearLength : ∀ year, t.HasYear year →
    (cal.yearLength year).outcome answers =
      .ok (.whole (t.start ((year - 1) * 12 + 12) - t.start ((year - 1) * 12)))
  dayNumber : ∀ d, t.IsDay d → cal.dayNumber d = .ok (t.numberOf d)
  ofDayNumber : ∀ d, t.IsDay d → cal.ofDayNumber (t.numberOf d) = .ok d
  /-- Numbers are small enough for shifts by days to be exact. -/
  bounds : ∀ d, t.IsDay d → 0 ≤ t.numberOf d ∧ t.numberOf d < DayIndex.numberBound

end HijriRecurrence
