import HijriRecurrence.Lunar.Arithmetic
import HijriRecurrence.Proofs.Lunar.Built
import HijriRecurrence.Proofs.Tabular.DayNumber
import Mathlib.Algebra.Ring.Int.Defs

/-!
# Dates of the tabular calendar

In the tabular calendar every question about a date has its answer on the spot, whatever the
observed calendar would say.  The lemmas here give that answer for a date that exists: its weekday,
the length of its month, its position in the year, and where a shift by months or years leads.

A shift by months or years lands in the month that the arithmetic names, on the same day or on the
last day of a month that is too short (`Tabular.clamp`).

So a host that knows no dates and a calendar that knows no month will do for working examples
(`Context.hostless`, `Answers.unknown`).
-/

namespace HijriRecurrence

/-- A context whose host knows no dates. -/
def Context.hostless : Context where
  host _ := .error "no dates"
  today := ⟨2025, 1, 1⟩

/-- Answers of a calendar that knows no month. -/
def Answers.unknown : Answers
  | .calendar => ()
  | .month .. => .error .notNumber

namespace Tabular

/-- The weekday of a day, Monday being 0. -/
def weekdayOf (d : LunarDay) : Int := dayNumberOf d % 7

/-- Position of a day in its year, counted from 1. -/
def dayOfYear (d : LunarDay) : Int := daysBeforeMonth d.month + d.day

/-- A day of a month, or the last day of a month that is too short. -/
def clamp (year month day : Int) : LunarDay := ⟨year, month, min day (monthDays year month)⟩

theorem isDay_clamp {year month day : Int} (hy : 1 ≤ year) (hm : 1 ≤ month ∧ month ≤ 12)
    (hd : 1 ≤ day) : IsDay (clamp year month day) := by
  have hlen := (monthDays_bounds year month).1
  exact isDay_mk.2 (by omega)

/-- The first day of a month exists. -/
theorem isDay_first {year month : Int} (hy : 1 ≤ year) (hm : 1 ≤ month ∧ month ≤ 12) :
    IsDay ⟨year, month, 1⟩ := by
  have hlen := (monthDays_bounds year month).1
  exact isDay_mk.2 (by omega)

variable {answers : Answers}

theorem outcome_monthLength {year month : Int} (hm : 1 ≤ month ∧ month ≤ 12) :
    (calendar.monthLength year month).outcome answers =
      .ok (.whole (monthDays year month)) := by
  simp [calendar, monthLength_of_mem hm, Except.map]

theorem weekday_of_isDay {d : LunarDay} (h : IsDay d) :
    calendar.weekday d = .ok (weekdayOf d) := by
  simp [Calendar.weekday, calendar, dayNumber_of_isDay h, Except.map, weekdayOf]

/-- The lengths of some months add up step by step. -/
theorem outcome_addMonths {year : Int} {months : List Int} (total : Int)
    (hm : ∀ m ∈ months, 1 ≤ m ∧ m ≤ 12) :
    (addMonths (calendar.monthLength year) (.whole total) months).outcome answers =
      .ok (.whole (total + (months.map (monthDays year)).sum)) := by
  induction months generalizing total with
  | nil => simp [addMonths]
  | cons m rest ih =>
    have hrest := ih (total + monthDays year m) fun n hn => hm n (List.mem_cons_of_mem m hn)
    rw [addMonths, Calculation.outcome_bind_ok (outcome_monthLength (hm m List.mem_cons_self)),
      Calculation.outcome_bind_ok (a := .whole (total + monthDays year m)) (by simp), hrest]
    simp [Int.add_assoc]

/-- The months before a month have as many days as are counted before it. -/
theorem sum_monthsBefore (year : Int) {month : Int} (hm : 1 ≤ month ∧ month ≤ 12) :
    ((monthsBefore month).map (monthDays year)).sum = daysBeforeMonth month := by
  have hcases : month = 1 ∨ month = 2 ∨ month = 3 ∨ month = 4 ∨ month = 5 ∨ month = 6 ∨
      month = 7 ∨ month = 8 ∨ month = 9 ∨ month = 10 ∨ month = 11 ∨ month = 12 := by omega
  rcases hcases with rfl | rfl | rfl | rfl | rfl | rfl | rfl | rfl | rfl | rfl | rfl | rfl <;>
    simp [monthsBefore, allMonths, monthDays, daysBeforeMonth]

theorem mem_allMonths {m : Int} : m ∈ allMonths ↔ 1 ≤ m ∧ m ≤ 12 := by
  simp only [allMonths, List.mem_cons, List.not_mem_nil, or_false]
  omega

/-- The months before a month add up, by the calendar, to the days counted before it. -/
theorem outcome_totalLength (year : Int) {month : Int} (hm : 1 ≤ month ∧ month ≤ 12) :
    (calendar.totalLength year (monthsBefore month)).outcome answers =
      .ok (.whole (daysBeforeMonth month)) := by
  rw [← Int.zero_add (daysBeforeMonth month), ← sum_monthsBefore year hm]
  exact outcome_addMonths 0 fun m hmem => mem_allMonths.1 (List.mem_filter.1 hmem).1

end Tabular

namespace LunarDate

variable {ctx : Context} {answers : Answers} {d : LunarDate}

/-- A date of the tabular calendar whose day exists. -/
structure IsTabular (d : LunarDate) : Prop where
  variant : d.variant = .tabular
  isDay : Tabular.IsDay d.toLunarDay

theorem calendar_of_tabular (h : d.variant = .tabular) :
    d.calendar ctx = pure Tabular.calendar := by
  rw [calendar, h, Context.serve_tabular]

/-- In the tabular calendar a date is built when its parts are in range and its day exists. -/
theorem built_iff_of_tabular (h : d.variant = .tabular) :
    Built ctx answers d ↔ d.InRange ∧ Tabular.IsDay d.toLunarDay := by
  rw [built_iff]
  refine and_congr_right fun hr => ?_
  rw [checkDay, calendar_of_tabular h, pure_bind,
    Calculation.outcome_bind_ok (Tabular.outcome_monthLength hr.month),
    Calculation.outcome_bind_ok
      (a := decide (d.day ≤ Tabular.monthDays d.year d.month)) (by simp)]
  by_cases hd : d.day ≤ Tabular.monthDays d.year d.month
  · simp [hd, Tabular.IsDay, hr.year, hr.month, hr.day]
  · simp [hd, Tabular.IsDay, throw, throwThe, MonadExceptOf.throw, Calculation.outcome]

theorem Built.isTabular (h : Built ctx answers d) (hv : d.variant = .tabular) : d.IsTabular :=
  ⟨hv, ((built_iff_of_tabular hv).1 h).2⟩

/-- A built date stays built on any other day that exists. -/
theorem Built.onDay (h : Built ctx answers d) (hv : d.variant = .tabular) {day : LunarDay}
    (hday : Tabular.IsDay day) : Built ctx answers (d.onDay day) := by
  have hr := h.inRange
  have hlen := (Tabular.monthDays_bounds day.year day.month).2
  have hday30 : day.day ≤ 30 := by
    have := hday.2.2.2.2
    omega
  exact (built_iff_of_tabular (d := d.onDay day) hv).2
    ⟨⟨hday.1, ⟨hday.2.1, hday.2.2.1⟩, ⟨hday.2.2.2.1, hday30⟩, hr.hour, hr.minute, hr.second⟩,
      hday⟩

theorem outcome_withDay (h : Built ctx answers d) (hv : d.variant = .tabular) {day : LunarDay}
    (hday : Tabular.IsDay day) : (d.withDay ctx day).outcome answers = .ok (d.onDay day) :=
  h.onDay hv hday

theorem outcome_weekday (h : d.IsTabular) :
    (d.weekday ctx).outcome answers = .ok (Tabular.weekdayOf d.toLunarDay) := by
  rw [weekday, calendar_of_tabular h.variant, pure_bind, Calculation.outcome_liftM,
    Tabular.weekday_of_isDay h.isDay]

theorem outcome_daysInMonth (h : d.IsTabular) :
    (d.daysInMonth ctx).outcome answers =
      .ok (.whole (Tabular.monthDays d.year d.month)) := by
  rw [daysInMonth, calendar_of_tabular h.variant, pure_bind]
  exact Tabular.outcome_monthLength ⟨h.isDay.2.1, h.isDay.2.2.1⟩

theorem outcome_dayNumber (h : d.IsTabular) :
    (d.dayNumber ctx).outcome answers = .ok (Tabular.dayNumberOf d.toLunarDay) := by
  rw [dayNumber, calendar_of_tabular h.variant, pure_bind, Calculation.outcome_liftM]
  exact Tabular.dayNumber_of_isDay h.isDay

/-- The difference of two dates is that of their day numbers. -/
theorem outcome_diffDays {a b : LunarDate} (ha : a.IsTabular) (hb : b.IsTabular) :
    (diffDays ctx a b).outcome answers =
      .ok (Tabular.dayNumberOf a.toLunarDay - Tabular.dayNumberOf b.toLunarDay) := by
  rw [diffDays, Calculation.outcome_bind_ok (outcome_dayNumber ha),
    Calculation.outcome_bind_ok (outcome_dayNumber hb)]
  rfl

theorem outcome_dayOfYear (h : d.IsTabular) :
    (d.dayOfYear ctx).outcome answers = .ok (.whole (Tabular.dayOfYear d.toLunarDay)) := by
  have hm : 1 ≤ d.month ∧ d.month ≤ 12 := ⟨h.isDay.2.1, h.isDay.2.2.1⟩
  rw [dayOfYear, calendar_of_tabular h.variant, pure_bind,
    Calculation.outcome_bind_ok (Tabular.outcome_totalLength d.year hm)]
  simp [Tabular.dayOfYear]

/-! ### Shifts by months and years -/

/-- A date moved into a month of the calendar keeps its day, or takes the last one; where the day
must not be cut, nothing comes of a month that is too short. -/
theorem outcome_moveTo (h : Built ctx answers d) (hv : d.variant = .tabular) {year month : Int}
    (hy : 1 ≤ year) (hm : 1 ≤ month ∧ month ≤ 12) (clamp : Bool) :
    (d.moveTo ctx year month clamp).outcome answers =
      .ok (if clamp = true ∨ (Tabular.clamp year month d.day).day = d.day then
        some (d.onDay (Tabular.clamp year month d.day)) else none) := by
  have hbuild := outcome_withDay h hv (Tabular.isDay_clamp hy hm h.inRange.day.1)
  unfold Tabular.clamp at hbuild ⊢
  rw [moveTo, if_neg (by omega)]
  by_cases hsame : year = d.year ∧ month = d.month
  · -- the month is the date's own, which has its day
    obtain ⟨rfl, rfl⟩ := hsame
    have hfit := (h.isTabular hv).isDay.2.2.2.2
    rw [if_pos ⟨rfl, rfl⟩, Int.min_eq_left hfit, if_pos (.inr rfl)]
    rfl
  · rw [if_neg hsame, calendar_of_tabular hv, pure_bind]
    rw [Calculation.outcome_bind_ok (Tabular.outcome_monthLength hm)]
    by_cases hfit : d.day ≤ Tabular.monthDays year month
    · rw [Int.min_eq_left hfit] at hbuild ⊢
      rw [Calculation.outcome_bind_ok (a := true) (by simp [hfit]), if_pos rfl,
        Calculation.outcome_bind_ok hbuild, if_pos (.inr rfl)]
      rfl
    · rw [Int.min_eq_right (by omega)] at hbuild ⊢
      rw [Calculation.outcome_bind_ok (a := false) (by simp [hfit]), if_neg Bool.false_ne_true]
      cases clamp with
      | true =>
        rw [if_pos rfl, Calculation.outcome_bind_ok (a := Tabular.monthDays year month) (by simp),
          Calculation.outcome_bind_ok hbuild, if_pos (.inl rfl)]
        rfl
      | false =>
        have hcut : ¬Tabular.monthDays year month = d.day := by omega
        rw [if_neg Bool.false_ne_true, if_neg (not_or.2 ⟨Bool.false_ne_true, hcut⟩)]
        rfl

/-- A shift by months counts months; the day is cut to the length of the month. -/
theorem outcome_addMonths (h : Built ctx answers d) (hv : d.variant = .tabular) {months : Int}
    (hn : 0 ≤ monthIndex d.toLunarDay + months) :
    (d.addMonths ctx months).outcome answers =
      .ok (some (d.onDay (Tabular.clamp ((monthIndex d.toLunarDay + months) / 12 + 1)
        ((monthIndex d.toLunarDay + months) % 12 + 1) d.day))) :=
  outcome_moveTo h hv (by omega) (by omega) true

/-- A shift by years keeps the month; the day is cut to the length of the month. -/
theorem outcome_addYears (h : Built ctx answers d) (hv : d.variant = .tabular) {years : Int}
    (hn : 1 ≤ d.year + years) :
    (d.addYears ctx years).outcome answers =
      .ok (some (d.onDay (Tabular.clamp (d.year + years) d.month d.day))) :=
  outcome_moveTo h hv hn h.inRange.month true

end LunarDate

end HijriRecurrence
