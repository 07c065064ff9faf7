import HijriRecurrence.Proofs.Tabular.MonthDays

/-!
# Positions in a year

A day of a year has a position in it, counted from 1, and a position belongs to a day.  The library
works with them in four places: it counts the days before a year and before a month, it adds up the
months before a date, it searches the months of a year for a position, and a rule searches them for
a position counted from either end.  In the tabular calendar all of these agree with each other and
with the sum that numbers a day.

* `outcome_daysBeforeYear`, `outcome_daysBeforeMonth` — what is counted before a year or a month;
* `exists_outcome_ofDayOfYear` — a position of the year is found at the day that has it;
* `outcome_yearDay_of_pos`, `yearDay_neg` — the search of a rule, from either end;
* `positions_of_year` — years, dates and positions put together.
-/

namespace HijriRecurrence

open Tabular

variable {ctx : Context} {answers : Answers} {name : Option CalendarName} {year : Int}

namespace Tabular

/-- The months of a year add up to its length. -/
theorem sum_allMonths (year : Int) : (allMonths.map (monthDays year)).sum = yearDays year := by
  have hsplit : allMonths = monthsBefore 12 ++ [12] := by decide
  rw [hsplit, List.map_append, List.sum_append, sum_monthsBefore year (by decide),
    ← daysBeforeMonth_last]
  simp

end Tabular

namespace LunarDate

/-! ### What is counted before a year and before a month -/

theorem outcome_daysBeforeYear (hname : ctx.variantOf name = .ok .tabular) (hy : 1 ≤ year) :
    (daysBeforeYear ctx year name).outcome answers = .ok (yearStart year - epoch) := by
  have hfirst : Tabular.calendar.dayNumber ⟨year, 1, 1⟩ = .ok (yearStart year) := by
    have hzero : Tabular.daysBeforeMonth 1 = 0 := by decide
    refine (dayNumber_of_isDay (isDay_first hy (by decide))).trans (congrArg Except.ok ?_)
    rw [dayNumberOf_mk]
    omega
  rw [daysBeforeYear, if_neg (by omega), hname,
    Calculation.outcome_bind_ok (a := .tabular) rfl, Context.serve_tabular, pure_bind,
    Calculation.outcome_bind_ok ((Calculation.outcome_liftM _).trans hfirst)]
  rfl

theorem outcome_daysBeforeMonth (hname : ctx.variantOf name = .ok .tabular) {month : Int}
    (hm : 1 ≤ month ∧ month ≤ 12) :
    (daysBeforeMonth ctx year (.int month) name).outcome answers =
      .ok (.whole (Tabular.daysBeforeMonth month)) := by
  have hread : readMonth (.int month) = .ok month := if_pos hm
  rw [daysBeforeMonth, hname, Calculation.outcome_bind_ok (a := .tabular) rfl,
    Context.serve_tabular, pure_bind,
    Calculation.outcome_bind_ok ((Calculation.outcome_liftM _).trans hread)]
  exact outcome_totalLength year hm

/-! ### The search for a position -/

/-- A position of the year is found at the day that has it. -/
theorem exists_outcome_ofDayOfYear (answers : Answers)
    (hname : ctx.variantOf name = .ok .tabular) (hy : 1 ≤ year) {position : Int}
    (hposition : 1 ≤ position ∧ position ≤ yearDays year) :
    ∃ d, IsDay d ∧ d.year = year ∧ Tabular.dayOfYear d = position ∧
      locate year allMonths position = some d ∧
      (ofDayOfYear ctx year (.whole position) name).outcome answers =
        .ok (d.month, .whole d.day) := by
  obtain ⟨d, hd, hday, hyear, hpos⟩ := locate_spec hy hposition.1 hposition.2
  refine ⟨d, hday, hyear, hpos, hd, ?_⟩
  have hlocate : (Tabular.calendar.locate year allMonths (.whole position)).outcome answers =
      .ok (some (d.month, .whole d.day)) := by
    rw [outcome_locate position fun m hm => mem_allMonths.1 hm, hd]
    rfl
  rw [ofDayOfYear, hname, Calculation.outcome_bind_ok (a := .tabular) rfl, Context.serve_tabular,
    pure_bind, Calculation.outcome_bind_ok (a := .whole (yearDays year)) rfl,
    Calculation.outcome_bind_ok (a := true) (by simp [hposition])]
  exact Calculation.outcome_bind_ok hlocate _

/-- Any other position is refused. -/
theorem outcome_ofDayOfYear_of_not (hname : ctx.variantOf name = .ok .tabular) {position : Int}
    (hposition : ¬(1 ≤ position ∧ position ≤ yearDays year)) :
    (ofDayOfYear ctx year (.whole position) name).outcome answers =
      .error (.badDayOfYear (.int position) (.int (yearDays year))) := by
  rw [ofDayOfYear, hname, Calculation.outcome_bind_ok (a := .tabular) rfl, Context.serve_tabular,
    pure_bind, Calculation.outcome_bind_ok (a := .whole (yearDays year)) rfl,
    Calculation.outcome_bind_ok (a := false) (by simp [hposition])]
  rfl

/-- The search of a rule from the start of a year is the search for a position, without its
refusal. -/
theorem outcome_yearDay_of_pos (hname : ctx.variantOf name = .ok .tabular) (hy : 1 ≤ year)
    {k : Int} (hk : 0 < k) :
    (RuleOptions.yearDay Tabular.calendar year k).outcome answers =
      .ok (((ofDayOfYear ctx year (.whole k) name).outcome answers).toOption.map fun place =>
        ⟨year, place.1, place.2⟩) := by
  rw [RuleOptions.outcome_yearDay]
  by_cases hrange : 1 ≤ k ∧ k ≤ yearDays year
  · obtain ⟨d, -, hyear, -, hlocate, hfound⟩ :=
      exists_outcome_ofDayOfYear answers hname hy hrange
    rw [hfound, Tabular.yearDay, if_pos hk, if_pos hrange, hlocate, ← hyear]
    rfl
  · rw [outcome_ofDayOfYear_of_not hname hrange, Tabular.yearDay, if_pos hk, if_neg hrange]
    rfl

/-- The search of a rule from the end of a year is a search from its start. -/
theorem yearDay_neg {k : Int} (hk : 0 < k) :
    Tabular.yearDay year (-k) =
      if k ≤ yearDays year then Tabular.yearDay year (yearDays year + 1 - k) else none := by
  have hsame : yearDays year + -k + 1 = yearDays year + 1 - k := by omega
  unfold Tabular.yearDay
  rw [if_neg (show ¬0 < -k by omega), hsame]
  by_cases hle : k ≤ yearDays year
  · rw [if_pos hle, if_pos (show 0 < yearDays year + 1 - k by omega)]
  · rw [if_neg hle, if_neg (by omega)]

/-! ### Years, days and positions -/

/-- What is counted of a year: the days before it, the days before the next one, and its own days,
which are those of its twelve months. -/
structure CountsYear (ctx : Context) (answers : Answers) (name : Option CalendarName)
    (year before length : Int) : Prop where
  daysBefore : (daysBeforeYear ctx year name).outcome answers = .ok before
  daysBeforeNext : (daysBeforeYear ctx (year + 1) name).outcome answers = .ok (before + length)
  yearLength : (Tabular.calendar.yearLength year).outcome answers = .ok (.whole length)
  monthLengths : ∃ lengths : Int → Int,
    (∀ month, 1 ≤ month ∧ month ≤ 12 →
      (Tabular.calendar.monthLength year month).outcome answers = .ok (.whole (lengths month))) ∧
    (allMonths.map lengths).sum = length

/-- What is counted of a date in a year with some days before it: its number is the sum of the days
before its year, before its month and before itself, and its position in the year leads back to
it. -/
structure CountsDate (ctx : Context) (answers : Answers) (name : Option CalendarName)
    (before : Int) (d : LunarDate) (inYear position : Int) : Prop where
  daysBefore : (daysBeforeMonth ctx d.year (.int d.month) name).outcome answers = .ok (.whole inYear)
  dayNumber : (d.dayNumber ctx).outcome answers = .ok (1948440 + before + inYear + d.day - 1)
  dayOfYear : (d.dayOfYear ctx).outcome answers = .ok (.whole position)
  ofDayOfYear : (ofDayOfYear ctx d.year (.whole position) name).outcome answers =
    .ok (d.month, .whole d.day)

/-- What is found at a position in a year of some length: a date with that position, or nothing
where the year is too short, and the same by the search of a rule from either end. -/
structure FindsPosition (ctx : Context) (answers : Answers) (name : Option CalendarName)
    (year length k : Int) : Prop where
  found : 1 ≤ k ∧ k ≤ length → ∃ month day : Int,
    (ofDayOfYear ctx year (.whole k) name).outcome answers = .ok (month, .whole day) ∧
    Built ctx answers { year, month, day, variant := .tabular } ∧
    (dayOfYear ctx { year, month, day, variant := .tabular }).outcome answers = .ok (.whole k)
  refused : (∃ e, (ofDayOfYear ctx year (.whole k) name).outcome answers = .error e ∧
    e.kind = .invalidInput) ↔ ¬(1 ≤ k ∧ k ≤ length)
  fromStart : 0 < k → (RuleOptions.yearDay Tabular.calendar year k).outcome answers =
    .ok (((ofDayOfYear ctx year (.whole k) name).outcome answers).toOption.map fun place =>
      ⟨year, place.1, place.2⟩)
  fromEnd : 0 < k → (RuleOptions.yearDay Tabular.calendar year (-k)).outcome answers =
    if k ≤ length then
      (RuleOptions.yearDay Tabular.calendar year (length + 1 - k)).outcome answers
    else .ok none

theorem countsYear (hname : ctx.variantOf name = .ok .tabular) (hy : 1 ≤ year) :
    CountsYear ctx answers name year (yearStart year - epoch) (yearDays year) where
  daysBefore := outcome_daysBeforeYear hname hy
  daysBeforeNext := by
    rw [outcome_daysBeforeYear hname (by omega), yearStart_succ]
    congr 1
    omega
  yearLength := rfl
  monthLengths := ⟨monthDays year, fun _ hm => outcome_monthLength hm, sum_allMonths year⟩

theorem countsDate (hname : ctx.variantOf name = .ok .tabular) {d : LunarDate}
    (h : d.IsTabular) :
    CountsDate ctx answers name (yearStart d.year - epoch) d (Tabular.daysBeforeMonth d.month)
      (Tabular.dayOfYear d.toLunarDay) where
  daysBefore := outcome_daysBeforeMonth hname ⟨h.isDay.2.1, h.isDay.2.2.1⟩
  dayNumber := by
    have hepoch : epoch = 1948440 := rfl
    rw [outcome_dayNumber h, dayNumberOf_eq]
    congr 1
    omega
  dayOfYear := outcome_dayOfYear h
  ofDayOfYear := by
    obtain ⟨e, he, hyear, hposition, -, hfound⟩ := exists_outcome_ofDayOfYear answers
      hname h.isDay.1 (dayOfYear_bounds h.isDay)
    rw [hfound, dayOfYear_injective he h.isDay hyear hposition]

theorem findsPosition (hname : ctx.variantOf name = .ok .tabular) (hy : 1 ≤ year) (k : Int) :
    FindsPosition ctx answers name year (yearDays year) k where
  found hk := by
    obtain ⟨d, hday, rfl, hposition, -, hfound⟩ :=
      exists_outcome_ofDayOfYear answers hname hy hk
    refine ⟨d.month, d.day, hfound, RuleOptions.outcome_build_day hday, ?_⟩
    rw [outcome_dayOfYear ⟨rfl, hday⟩, ← hposition]
  refused := by
    constructor
    · rintro ⟨e, he, -⟩ hk
      obtain ⟨d, -, -, -, -, hfound⟩ :=
        exists_outcome_ofDayOfYear answers hname hy hk
      rw [hfound] at he
      cases he
    · intro hk
      exact ⟨_, outcome_ofDayOfYear_of_not hname hk, rfl⟩
  fromStart hk := outcome_yearDay_of_pos hname hy hk
  fromEnd hk := by
    rw [RuleOptions.outcome_yearDay, RuleOptions.outcome_yearDay, yearDay_neg hk]
    split <;> rfl

/-- The last day of a leap year, at noon. -/
def lastOf1445 : LunarDate :=
  { year := 1445, month := 12, day := 30, hour := 12, variant := .tabular }

end LunarDate

end HijriRecurrence
