import HijriRecurrence.Proofs.Calendar.MonthTable
import HijriRecurrence.Proofs.Tabular.MonthDays

/-!
# Dates within a month table

In a calendar that keeps a month table, dates on the days of the table are built, and arithmetic
that stays on these days does not fail: shifts by months, years and days, weekdays, and the weekdays
of a month by their position.  Each result is said in terms of the table.
-/

namespace HijriRecurrence

open MonthTable

namespace Calendar.Keeps

variable {cal : Calendar} {answers : Answers} {t : MonthTable}

theorem weekday (hk : cal.Keeps answers t) {d : LunarDay} (h : t.IsDay d) :
    cal.weekday d = .ok (t.numberOf d % 7) := by
  rw [Calendar.weekday, hk.dayNumber d h]
  rfl

end Calendar.Keeps

namespace LunarDate

variable {ctx : Context} {answers : Answers} {cal : Calendar} {t : MonthTable} {d : LunarDate}

section Arithmetic

variable (hserve : (ctx.serve d.variant).outcome answers = .ok cal) (hk : cal.Keeps answers t)

include hserve hk

/-- A date whose month is in the table is built when its parts are in range and it is on a day of
the table. -/
theorem built_of_isDay (hr : d.InRange) (h : t.IsDay d.toLunarDay) : d.Built ctx answers := by
  refine built_iff.2 ⟨hr, ?_⟩
  have hfits : d.day ≤ t.monthDays ((d.year - 1) * 12 + (d.month - 1)) := h.2.2.2
  rw [checkDay, calendar, Calculation.outcome_bind_ok hserve,
    Calculation.outcome_bind_ok (hk.monthLength _ _ h.1 h.2.1),
    Calculation.outcome_bind_ok (a := true) (by simpa using hfits)]
  rfl

/-- A built date stays built on any other day of the table. -/
theorem Built.onDay_of_isDay (hd : d.Built ctx answers) {day : LunarDay} (h : t.IsDay day) :
    (d.onDay day).Built ctx answers := by
  have hr := hd.inRange
  exact built_of_isDay (d := d.onDay day) hserve hk
    ⟨h.year_pos, h.1, ⟨h.2.2.1, h.day_le⟩, hr.hour, hr.minute, hr.second⟩ h

theorem outcome_weekday_of_isDay (h : t.IsDay d.toLunarDay) :
    (d.weekday ctx).outcome answers = .ok (t.numberOf d.toLunarDay % 7) := by
  rw [LunarDate.weekday, calendar, Calculation.outcome_bind_ok hserve, Calculation.outcome_liftM]
  exact hk.weekday h

theorem outcome_daysInMonth_of_isDay (h : t.IsDay d.toLunarDay) :
    (d.daysInMonth ctx).outcome answers =
      .ok (.whole (t.monthDays (monthIndex d.toLunarDay))) := by
  rw [daysInMonth, calendar, Calculation.outcome_bind_ok hserve]
  exact hk.monthLength _ _ h.1 h.2.1

/-- A date moved into a month of the table keeps its day, or takes the last one. -/
theorem outcome_moveTo_of_has (hd : d.Built ctx answers) (h : t.IsDay d.toLunarDay)
    {year month : Int} (hm : 1 ≤ month ∧ month ≤ 12)
    (hhas : t.Has ((year - 1) * 12 + (month - 1))) :
    ∃ day, t.IsDay ⟨year, month, day⟩ ∧
      (d.moveTo ctx year month true).outcome answers = .ok (some (d.onDay ⟨year, month, day⟩)) := by
  have hlength := monthDays_bounds hhas
  have hd1 := h.2.2.1
  have hyear : ¬year < 1 := by
    have hfirst := t.first_nonneg
    have hlow := hhas.1
    omega
  -- the day is built wherever it lies in the month
  have hbuild : ∀ day, t.IsDay ⟨year, month, day⟩ →
      (d.withDay ctx ⟨year, month, day⟩).outcome answers =
        .ok (d.onDay ⟨year, month, day⟩) := fun day hday => hd.onDay_of_isDay hserve hk hday
  rw [moveTo, if_neg hyear]
  by_cases hsame : year = d.year ∧ month = d.month
  · obtain ⟨rfl, rfl⟩ := hsame
    rw [if_pos ⟨rfl, rfl⟩]
    exact ⟨d.day, h, rfl⟩
  · rw [if_neg hsame, calendar, Calculation.outcome_bind_ok hserve,
      Calculation.outcome_bind_ok (hk.monthLength _ _ hm hhas)]
    by_cases hfit : d.day ≤ t.monthDays ((year - 1) * 12 + (month - 1))
    · have hday : t.IsDay ⟨year, month, d.day⟩ := (isDay_mk hm).2 ⟨hhas, hd1, hfit⟩
      refine ⟨d.day, hday, ?_⟩
      rw [Calculation.outcome_bind_ok (a := true) (by simp [hfit]), if_pos rfl,
        Calculation.outcome_bind_ok (hbuild _ hday)]
      rfl
    · have hday : t.IsDay ⟨year, month, t.monthDays ((year - 1) * 12 + (month - 1))⟩ :=
        (isDay_mk hm).2 ⟨hhas, by omega, Int.le_refl _⟩
      refine ⟨_, hday, ?_⟩
      rw [Calculation.outcome_bind_ok (a := false) (by simp [hfit]), if_neg Bool.false_ne_true,
        if_pos rfl, Calculation.outcome_bind_ok
          (a := t.monthDays ((year - 1) * 12 + (month - 1))) (by simp),
        Calculation.outcome_bind_ok (hbuild _ hday)]
      rfl

/-- **A shift by days to a number of the table finds the day of this number.** -/
theorem outcome_addDays_of_hasNumber (hd : d.Built ctx answers) (h : t.IsDay d.toLunarDay)
    {days : Int} (hn : t.HasNumber (t.numberOf d.toLunarDay + days)) :
    ∃ e, t.IsDay e ∧ t.numberOf e = t.numberOf d.toLunarDay + days ∧
      (d.addDays ctx (.whole days)).outcome answers = .ok (d.onDay e) := by
  have hr := hd.inRange
  have hs := secondOfDay_range hr
  obtain ⟨e, he, hnumber⟩ := exists_numberOf hn
  refine ⟨e, he, hnumber, ?_⟩
  by_cases hzero : days = 0
  · rw [hzero, Int.add_zero] at hnumber
    have heq : e = d.toLunarDay := by
      rcases LunarDay.lt_trichotomy e d.toLunarDay with hlt | heq | hlt
      · have := (numberOf_lt_iff he h).2 hlt
        omega
      · exact heq
      · have := (numberOf_lt_iff h he).2 hlt
        omega
    rw [hzero, addDays_zero, heq]
    rfl
  · have hbounds := hk.bounds _ h
    have hbounds' := hk.bounds _ he
    rw [hnumber] at hbounds'
    obtain ⟨index, hindex, hmarks⟩ := DayIndex.ofDayNumber_spec hbounds hs
    obtain ⟨shifted, hshifted, hmarks'⟩ := DayIndex.shift_spec hmarks hs hbounds hbounds'
    have hsplit := DayIndex.split_of_marks hmarks' hbounds' hs
    have hofLunar : (DayIndex.ofLunar ctx d).outcome answers = .ok index := by
      rw [DayIndex.ofLunar, calendar, Calculation.outcome_bind_ok hserve,
        Calculation.outcome_liftM, DayIndex.ofLunarIn, hk.dayNumber _ h]
      exact hindex
    have hbuilt := hd.onDay_of_isDay hserve hk he
    rw [← onDay_of_secondOfDay hr] at hbuilt ⊢
    rw [addDays, if_neg (by simpa using hzero), Calculation.outcome_bind_ok hofLunar,
      Calculation.outcome_bind_ok ((Calculation.outcome_liftM _).trans hshifted), calendar,
      Calculation.outcome_bind_ok hserve, DayIndex.toLunar, hsplit]
    dsimp only
    rw [← hnumber, Calculation.outcome_bind_ok
      ((Calculation.outcome_liftM _).trans (hk.ofDayNumber e he))]
    exact hbuilt

end Arithmetic

/-- A weekday of a month of the table is looked up without a failure, and what is found is a day of
the month. -/
theorem outcome_nthWeekday_of_has {variant : Variant}
    (hserve : (ctx.serve variant).outcome answers = .ok cal) (hk : cal.Keeps answers t)
    {year month : Int} (w : Weekday) (hm : 1 ≤ month ∧ month ≤ 12)
    (hhas : t.Has ((year - 1) * 12 + (month - 1))) :
    ∃ found, (nthWeekdayOfMonth ctx year month w.number (w.ordinal?.getD 0)
        (some (.known variant))).outcome answers = .ok found ∧
      ∀ e ∈ found, t.IsDay e.toLunarDay ∧ e.year = year ∧ e.month = month := by
  unfold nthWeekdayOfMonth
  by_cases hzero : w.ordinal?.getD 0 = 0
  · rw [if_pos hzero]
    exact ⟨none, rfl, fun e he => by cases he⟩
  · rw [if_neg hzero, Calculation.outcome_bind_ok (a := variant) (by rfl),
      Calculation.outcome_bind_ok hserve,
      Calculation.outcome_bind_ok (hk.monthLength _ _ hm hhas),
      Calculation.outcome_bind_ok
        ((Calculation.outcome_liftM _).trans (hk.weekday (isDay_first hm hhas))),
      Calculation.outcome_bind_ok
        (a := t.monthDays ((year - 1) * 12 + (month - 1))) (by simp)]
    cases hnth : nth? (weekdaysOfMonth (t.numberOf ⟨year, month, 1⟩ % 7)
        (t.monthDays ((year - 1) * 12 + (month - 1))) w.number) (w.ordinal?.getD 0) with
    | none => exact ⟨none, rfl, fun e he => by cases he⟩
    | some day =>
      have hrange := (Tabular.mem_weekdaysOfMonth.1 (Tabular.mem_of_nth? hnth)).1
      have hday : t.IsDay ⟨year, month, day⟩ := (isDay_mk hm).2 ⟨hhas, hrange⟩
      have hbuilt : Built ctx answers { year, month, day, variant } :=
        built_of_isDay (d := { year, month, day, variant }) hserve hk
          ⟨hday.year_pos, hm, ⟨hrange.1, hday.day_le⟩, ⟨Int.le_refl 0, Int.le.intro 23 rfl⟩,
            ⟨Int.le_refl 0, Int.le.intro 59 rfl⟩, ⟨Int.le_refl 0, Int.le.intro 59 rfl⟩⟩ hday
      refine ⟨some { year, month, day, variant }, Calculation.outcome_bind_ok hbuilt _, ?_⟩
      rintro e ⟨⟩
      exact ⟨hday, rfl, rfl⟩

end LunarDate

end HijriRecurrence
