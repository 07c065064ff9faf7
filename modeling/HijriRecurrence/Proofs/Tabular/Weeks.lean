import HijriRecurrence.Lunar.Arithmetic
import HijriRecurrence.Proofs.Tabular.IndexWeekday

/-!
# Weeks

Weeks that start on some weekday cut the days of the tabular calendar into stretches of seven, and
`Tabular.weekIndex` counts the stretches.  The first and the last day of a week are found by shifts
of at most six days, so nothing is needed of them but that such shifts are exact
(`LunarDate.ShiftsWithinWeek`).  The number of a week in its year comes from elsewhere, from a
division of the position in the year; all the same it counts the same stretches.

* `exists_startOfWeek`, `exists_endOfWeek` — the first and the last day of a week;
* `outcome_sameWeek` — two dates lie in one week when they are in one stretch;
* `outcome_weekOfYear` — the number of a week counts the stretches from that of 1 Muharram on;
* `weeks_laws` — all of it together.
-/

namespace HijriRecurrence

namespace Tabular

/-- The position of a day's week among all weeks that start on a weekday. -/
def weekIndex (weekStart : Int) (d : LunarDay) : Int := (dayNumberOf d - weekStart) / 7

/-- The number of the first day of a day's week. -/
def firstOfWeek (weekStart : Int) (d : LunarDay) : Int :=
  dayNumberOf d - (dayNumberOf d - weekStart) % 7

variable {weekStart : Int} {a b d : LunarDay}

theorem firstOfWeek_eq : firstOfWeek weekStart d = weekStart + 7 * weekIndex weekStart d := by
  unfold firstOfWeek weekIndex
  omega

/-- The first day of a week is that of the same week only. -/
theorem firstOfWeek_inj :
    firstOfWeek weekStart a = firstOfWeek weekStart b ↔
      weekIndex weekStart a = weekIndex weekStart b := by
  rw [firstOfWeek_eq, firstOfWeek_eq]
  omega

/-- Of a day and the six days before it, the first day of the week alone has the weekday on which
weeks start. -/
theorem eq_firstOfWeek {n : Int} (hn : n % 7 = weekStart) (hlow : dayNumberOf d - 6 ≤ n)
    (hhigh : n ≤ dayNumberOf d) : n = firstOfWeek weekStart d := by
  unfold firstOfWeek
  omega

/-- The week of the next day is the next one exactly when a week starts on that day. -/
theorem weekIndex_succ (hw : 0 ≤ weekStart ∧ weekStart ≤ 6)
    (h : dayNumberOf b = dayNumberOf a + 1) :
    weekIndex weekStart b =
      if dayNumberOf b % 7 = weekStart then weekIndex weekStart a + 1
      else weekIndex weekStart a := by
  unfold weekIndex
  split <;> omega

/-- The number of a week from the position of its day in the year and from the number of days before
the first week that starts in the year. -/
theorem weekNumber_eq (weekStart start position : Int) (hposition : 1 ≤ position) :
    (if position ≤ (weekStart - start % 7) % 7 then 1
      else (position - (weekStart - start % 7) % 7 + 6) / 7 +
        (if 0 < (weekStart - start % 7) % 7 then 1 else 0)) =
      (start + position - 1 - weekStart) / 7 - (start - weekStart) / 7 + 1 := by
  split_ifs <;> omega

/-- A day is as far from 1 Muharram as its position in the year says. -/
theorem dayNumberOf_eq_position (d : LunarDay) :
    dayNumberOf ⟨d.year, 1, 1⟩ + dayOfYear d - 1 = dayNumberOf d := by
  rw [dayNumberOf_mk, dayNumberOf_eq, dayOfYear, show daysBeforeMonth 1 = 0 from rfl]
  omega

end Tabular

namespace LunarDate

variable {ctx : Context} {answers : Answers} {a b d : LunarDate} {weekStart : Int}

/-- Shifts of a date by up to six days are exact, as far as they lead to days that exist. -/
def ShiftsWithinWeek (ctx : Context) (answers : Answers) (d : LunarDate) : Prop :=
  ∀ days, -6 ≤ days → days ≤ 6 → Tabular.epoch ≤ Tabular.dayNumberOf d.toLunarDay + days →
    d.ShiftsExactly ctx answers days

/-- They are so for the days that a civil date can name, and many more. -/
theorem shiftsWithinWeek_of_range (hd : d.Built ctx answers) (hv : d.variant = .tabular)
    (hn : Tabular.dayNumberOf d.toLunarDay + 6 < DayIndex.numberBound) :
    d.ShiftsWithinWeek ctx answers := by
  intro days _ hhigh hepoch
  exact shiftsExactly_of_range hd hv (by omega) ⟨hepoch, by omega⟩

section Date

variable (hd : d.Built ctx answers) (hv : d.variant = .tabular)
  (hshift : d.ShiftsWithinWeek ctx answers)

include hd hv hshift

theorem outcome_indexWeekday :
    (DayIndex.weekday ctx d).outcome answers = .ok (Tabular.dayNumberOf d.toLunarDay % 7) := by
  have hepoch := Tabular.epoch_le_dayNumberOf (hd.isTabular hv).isDay
  refine outcome_weekday_of_shiftsExactly hd hv fun days hdays => ?_
  exact hshift days (by omega) (by omega) (by omega)

/-- **The first day of a week.** -/
theorem exists_startOfWeek (hstart : Tabular.epoch ≤ Tabular.firstOfWeek weekStart d.toLunarDay) :
    ∃ first, (d.startOfWeek ctx (.whole weekStart)).outcome answers = .ok first ∧
      first.Built ctx answers ∧ first.variant = .tabular ∧
      first.toLunarDay = Tabular.dayAt (Tabular.firstOfWeek weekStart d.toLunarDay) := by
  have hnumber : Tabular.dayNumberOf d.toLunarDay +
      (0 - (Tabular.dayNumberOf d.toLunarDay % 7 - weekStart) % 7) =
        Tabular.firstOfWeek weekStart d.toLunarDay := by
    unfold Tabular.firstOfWeek
    omega
  have hexact := hshift (0 - (Tabular.dayNumberOf d.toLunarDay % 7 - weekStart) % 7) (by omega)
    (by omega) (hnumber ▸ hstart)
  obtain ⟨first, hfirst, hbuilt, hvariant, hday⟩ := exists_of_shiftsExactly hd hv hexact
  refine ⟨first, ?_, hbuilt, hvariant, hnumber ▸ hday⟩
  rw [startOfWeek, Calculation.outcome_bind_ok (outcome_indexWeekday hd hv hshift)]
  exact hfirst

/-- **The last day of a week.** -/
theorem exists_endOfWeek (weekStart : Int) :
    ∃ last, (d.endOfWeek ctx (.whole weekStart)).outcome answers = .ok last ∧
      last.Built ctx answers ∧ last.variant = .tabular ∧
      last.toLunarDay = Tabular.dayAt (Tabular.firstOfWeek weekStart d.toLunarDay + 6) := by
  have hepoch := Tabular.epoch_le_dayNumberOf (hd.isTabular hv).isDay
  have hnumber : Tabular.dayNumberOf d.toLunarDay +
      ((weekStart + 6) % 7 - Tabular.dayNumberOf d.toLunarDay % 7) % 7 =
        Tabular.firstOfWeek weekStart d.toLunarDay + 6 := by
    unfold Tabular.firstOfWeek
    omega
  have hexact := hshift (((weekStart + 6) % 7 - Tabular.dayNumberOf d.toLunarDay % 7) % 7)
    (by omega) (by omega) (by omega)
  obtain ⟨last, hlast, hbuilt, hvariant, hday⟩ := exists_of_shiftsExactly hd hv hexact
  refine ⟨last, ?_, hbuilt, hvariant, hnumber ▸ hday⟩
  unfold endOfWeek
  simp only [Quantity.whole_plus_whole]
  show Calculation.outcome answers (DayIndex.weekday ctx d >>= _) = _
  rw [Calculation.outcome_bind_ok (outcome_indexWeekday hd hv hshift)]
  exact hlast

end Date

/-- **Two dates lie in one week when their weeks have one position.** -/
theorem outcome_sameWeek (ha : a.Built ctx answers) (hav : a.variant = .tabular)
    (hashift : a.ShiftsWithinWeek ctx answers) (hb : b.Built ctx answers)
    (hbv : b.variant = .tabular) (hbshift : b.ShiftsWithinWeek ctx answers)
    (hastart : Tabular.epoch ≤ Tabular.firstOfWeek weekStart a.toLunarDay)
    (hbstart : Tabular.epoch ≤ Tabular.firstOfWeek weekStart b.toLunarDay) :
    (sameWeek ctx a b (.whole weekStart)).outcome answers =
      .ok (decide (Tabular.weekIndex weekStart a.toLunarDay =
        Tabular.weekIndex weekStart b.toLunarDay)) := by
  obtain ⟨first, hfirst, -, -, hday⟩ := exists_startOfWeek ha hav hashift hastart
  obtain ⟨second, hsecond, -, -, hday'⟩ := exists_startOfWeek hb hbv hbshift hbstart
  have hiff : first.toLunarDay = second.toLunarDay ↔
      Tabular.weekIndex weekStart a.toLunarDay = Tabular.weekIndex weekStart b.toLunarDay := by
    rw [hday, hday', ← Tabular.firstOfWeek_inj]
    constructor
    · intro heq
      rw [← Tabular.dayNumberOf_dayAt hastart, ← Tabular.dayNumberOf_dayAt hbstart, heq]
    · intro heq
      rw [heq]
  rw [sameWeek, Calculation.outcome_bind_ok hfirst, Calculation.outcome_bind_ok hsecond]
  exact congrArg Except.ok (decide_eq_decide.2 hiff)

theorem isDay_firstOfYear (hd : d.IsTabular) : Tabular.IsDay ⟨d.year, 1, 1⟩ := by
  have hlength := Tabular.monthDays_bounds d.year 1
  exact Tabular.isDay_mk.2 ⟨hd.isDay.1, by norm_num, by norm_num, by norm_num, by omega⟩

/-- **The number of a week counts the weeks from that of 1 Muharram on.** -/
theorem outcome_weekOfYear (hd : d.Built ctx answers) (hv : d.variant = .tabular)
    (hfirst : (d.onDay ⟨d.year, 1, 1⟩).ShiftsWithinWeek ctx answers) :
    (d.weekOfYear ctx (.whole weekStart)).outcome answers =
      .ok (Tabular.weekIndex weekStart d.toLunarDay -
        Tabular.weekIndex weekStart ⟨d.year, 1, 1⟩ + 1) := by
  have htab := hd.isTabular hv
  have hday := isDay_firstOfYear htab
  have hbuilt := hd.onDay hv hday
  obtain ⟨hposition, hposition'⟩ := Tabular.dayOfYear_bounds htab.isDay
  have hyear := (Tabular.yearDays_bounds d.year).2
  have hweekday := outcome_indexWeekday hbuilt hv hfirst
  rw [weekOfYear, Calculation.outcome_bind_ok (outcome_withDay hd hv hday),
    Calculation.outcome_bind_ok hweekday]
  show Calculation.outcome answers (d.dayOfYear ctx >>= _) = _
  rw [Calculation.outcome_bind_ok (outcome_dayOfYear htab)]
  rw [onDay_toLunarDay]
  have hlead : 0 ≤ (weekStart - Tabular.dayNumberOf ⟨d.year, 1, 1⟩ % 7) % 7 := by omega
  have hsame := Tabular.weekNumber_eq weekStart (Tabular.dayNumberOf ⟨d.year, 1, 1⟩)
    (Tabular.dayOfYear d.toLunarDay) hposition
  rw [Tabular.dayNumberOf_eq_position] at hsame
  generalize (weekStart - Tabular.dayNumberOf ⟨d.year, 1, 1⟩ % 7) % 7 = lead at hlead hsame
  show Calculation.outcome answers
    (if decide (Tabular.dayOfYear d.toLunarDay ≤ lead) = true then pure 1
      else do
        let weeks ← (Quantity.whole (Tabular.dayOfYear d.toLunarDay - lead)).weeks
        pure (weeks + if (Quantity.whole 0).before (Quantity.whole lead) = true then 1 else 0)) = _
  rw [Tabular.weekIndex, Tabular.weekIndex, ← hsame]
  by_cases hle : Tabular.dayOfYear d.toLunarDay ≤ lead
  · rw [if_pos (decide_eq_true hle), if_pos hle]
    rfl
  · have hfew : (355 : Nat) ≤ Quantity.exactWeeks := by decide
    have hweeks : (Quantity.whole (Tabular.dayOfYear d.toLunarDay - lead)).weeks =
        .ok ((Tabular.dayOfYear d.toLunarDay - lead + 6) / 7) := if_pos (by omega)
    rw [if_neg (by simpa using hle), if_neg hle, hweeks, Quantity.whole_before_whole]
    simp only [decide_eq_true_eq]
    rfl

/-- A date has the weekday on which weeks start, and is the day of some number or one of the six
days before it. -/
structure StartsWeek (ctx : Context) (answers : Answers) (weekStart number : Int)
    (first : LunarDate) : Prop where
  built : first.Built ctx answers
  variant : first.variant = .tabular
  weekday : (first.weekday ctx).outcome answers = .ok weekStart
  near : ∃ n, (first.dayNumber ctx).outcome answers = .ok n ∧ number - 6 ≤ n ∧ n ≤ number

/-- Such a date is on the first day of the week. -/
theorem StartsWeek.dayNumberOf_eq {first : LunarDate}
    (h : first.StartsWeek ctx answers weekStart (Tabular.dayNumberOf d.toLunarDay)) :
    Tabular.dayNumberOf first.toLunarDay = Tabular.firstOfWeek weekStart d.toLunarDay := by
  have htab := h.built.isTabular h.variant
  have hweekday : Except.ok (Tabular.weekdayOf first.toLunarDay) = Except.ok weekStart :=
    (outcome_weekday htab).symm.trans h.weekday
  obtain ⟨n, hn, hlow, hhigh⟩ := h.near
  rw [outcome_dayNumber htab] at hn
  obtain rfl := Except.ok.inj hn
  exact Tabular.eq_firstOfWeek (Except.ok.inj hweekday) hlow hhigh

/-- The first and the last day of the week of a date with some number.  Of the number and the six
before it no other day has the weekday of the first one. -/
structure WeekBounds (ctx : Context) (answers : Answers) (weekStart number : Int)
    (d first last : LunarDate) : Prop where
  startOfWeek : (d.startOfWeek ctx (.whole weekStart)).outcome answers = .ok first
  starts : first.StartsWeek ctx answers weekStart number
  unique : ∀ e : LunarDate, e.StartsWeek ctx answers weekStart number →
    e.toLunarDay = first.toLunarDay
  endOfWeek : (d.endOfWeek ctx (.whole weekStart)).outcome answers = .ok last
  built : last.Built ctx answers
  diffDays : (diffDays ctx last first).outcome answers = .ok 6
  addDays : first.ShiftsExactly ctx answers 6 →
    ∃ later, (first.addDays ctx (.whole 6)).outcome answers = .ok later ∧
      later.toLunarDay = last.toLunarDay

/-- **A week has a first and a last day.** -/
theorem exists_weekBounds (hw : 0 ≤ weekStart ∧ weekStart ≤ 6) (hd : d.Built ctx answers)
    (hv : d.variant = .tabular) (hshift : d.ShiftsWithinWeek ctx answers)
    (hstart : Tabular.epoch ≤ Tabular.firstOfWeek weekStart d.toLunarDay) :
    ∃ first last,
      WeekBounds ctx answers weekStart (Tabular.dayNumberOf d.toLunarDay) d first last := by
  obtain ⟨first, hfirst, hbuilt, hvariant, hday⟩ := exists_startOfWeek hd hv hshift hstart
  obtain ⟨last, hlast, hbuilt', hvariant', hday'⟩ :=
    exists_endOfWeek hd hv hshift weekStart
  have htab := hbuilt.isTabular hvariant
  have htab' := hbuilt'.isTabular hvariant'
  have hnumber : Tabular.dayNumberOf first.toLunarDay =
      Tabular.firstOfWeek weekStart d.toLunarDay := by
    rw [hday, Tabular.dayNumberOf_dayAt hstart]
  have hnumber' : Tabular.dayNumberOf last.toLunarDay =
      Tabular.firstOfWeek weekStart d.toLunarDay + 6 := by
    rw [hday', Tabular.dayNumberOf_dayAt (by omega)]
  have hstarts : first.StartsWeek ctx answers weekStart (Tabular.dayNumberOf d.toLunarDay) := by
    refine ⟨hbuilt, hvariant, ?_, _, outcome_dayNumber htab, ?_, ?_⟩
    · rw [outcome_weekday htab, Tabular.weekdayOf, hnumber, Tabular.firstOfWeek_eq]
      congr 1
      omega
    · rw [hnumber, Tabular.firstOfWeek]
      omega
    · rw [hnumber, Tabular.firstOfWeek]
      omega
  refine ⟨first, last, hfirst, hstarts, fun e he => ?_, hlast, hbuilt', ?_, fun hexact => ?_⟩
  · have heday := (he.built.isTabular he.variant).isDay
    exact Tabular.dayNumberOf_injective heday htab.isDay (he.dayNumberOf_eq.trans hnumber.symm)
  · rw [outcome_diffDays htab' htab, hnumber, hnumber', add_sub_cancel_left]
  · obtain ⟨later, hlater, -, -, hlaterDay⟩ := exists_of_shiftsExactly hbuilt hvariant hexact
    exact ⟨later, hlater, by rw [hlaterDay, hnumber, hday']⟩

/-- **Weeks of the tabular calendar.**  Take two dates and a weekday on which weeks start, and let
shifts by at most six days be exact for the dates and for 1 Muharram of their years.

* The first day of the week has that weekday, and no other of the first date and the six days before
  it has; the last day of the week is six days after the first.
* The dates lie in one week exactly when their day numbers, less the weekday, have one quotient by
  seven.
* In one year the dates have one week number exactly when they lie in one week.  The number is 1 on
  1 Muharram, and from a day to the next it grows by 1 when the next day has that weekday, and else
  it stays. -/
theorem weeks_laws {numberA numberB : Int} (hw : 0 ≤ weekStart ∧ weekStart ≤ 6)
    (ha : a.Built ctx answers) (hav : a.variant = .tabular)
    (hb : b.Built ctx answers) (hbv : b.variant = .tabular)
    (hnumberA : (a.dayNumber ctx).outcome answers = .ok numberA)
    (hnumberB : (b.dayNumber ctx).outcome answers = .ok numberB)
    (hstartA : Tabular.epoch ≤ numberA - (numberA - weekStart) % 7)
    (hstartB : Tabular.epoch ≤ numberB - (numberB - weekStart) % 7)
    (hshiftA : a.ShiftsWithinWeek ctx answers) (hshiftB : b.ShiftsWithinWeek ctx answers)
    (hfirstA : (a.onDay ⟨a.year, 1, 1⟩).ShiftsWithinWeek ctx answers)
    (hfirstB : (b.onDay ⟨b.year, 1, 1⟩).ShiftsWithinWeek ctx answers) :
    (∃ first last, WeekBounds ctx answers weekStart numberA a first last) ∧
    (sameWeek ctx a b (.whole weekStart)).outcome answers =
      .ok (decide ((numberA - weekStart) / 7 = (numberB - weekStart) / 7)) ∧
    ∃ weekA weekB weekday,
      (a.weekOfYear ctx (.whole weekStart)).outcome answers = .ok weekA ∧
      (b.weekOfYear ctx (.whole weekStart)).outcome answers = .ok weekB ∧
      (b.weekday ctx).outcome answers = .ok weekday ∧
      (a.month = 1 → a.day = 1 → weekA = 1) ∧
      (a.year = b.year →
        (weekA = weekB ↔ (sameWeek ctx a b (.whole weekStart)).outcome answers = .ok true) ∧
        (numberB = numberA + 1 → weekB = if weekday = weekStart then weekA + 1 else weekA)) := by
  have htabA := ha.isTabular hav
  have htabB := hb.isTabular hbv
  rw [outcome_dayNumber htabA] at hnumberA
  rw [outcome_dayNumber htabB] at hnumberB
  obtain rfl := Except.ok.inj hnumberA
  obtain rfl := Except.ok.inj hnumberB
  have hsame := outcome_sameWeek ha hav hshiftA hb hbv hshiftB hstartA hstartB
  refine ⟨exists_weekBounds hw ha hav hshiftA hstartA, hsame, _, _, _,
    outcome_weekOfYear ha hav hfirstA, outcome_weekOfYear hb hbv hfirstB, outcome_weekday htabB,
    fun hmonth hday => ?_, fun hyear => ⟨?_, fun hnext => ?_⟩⟩
  · have hfirst : a.toLunarDay = ⟨a.year, 1, 1⟩ := LunarDay.ext_fields rfl hmonth hday
    rw [← hfirst]
    omega
  · rw [hsame, hyear]
    simp
  · rw [Tabular.weekIndex_succ hw hnext, Tabular.weekdayOf, hyear]
    split <;> omega

/-- A day of the first days of 1446, a little before noon. -/
def earlyIn1446 (day : Int) : LunarDate :=
  { year := 1446, month := 1, day, hour := 11, minute := 59, second := 59, variant := .tabular }

/-- When weeks start on Thursday, the first week of 1446 has three days: 1 Muharram is a Monday. -/
theorem weeks_laws_earlyIn1446 :
    (earlyIn1446 3).ShiftsWithinWeek .hostless .unknown ∧
    (earlyIn1446 4).ShiftsWithinWeek .hostless .unknown ∧
    (earlyIn1446 1).ShiftsWithinWeek .hostless .unknown ∧
    (∃ first, ((earlyIn1446 3).startOfWeek .hostless (.whole 3)).outcome .unknown = .ok first ∧
      (first.weekday .hostless).outcome .unknown = .ok 3) ∧
    (sameWeek .hostless (earlyIn1446 3) (earlyIn1446 4) (.whole 3)).outcome .unknown =
      .ok false ∧
    ∃ week next, ((earlyIn1446 3).weekOfYear .hostless (.whole 3)).outcome .unknown = .ok week ∧
      ((earlyIn1446 4).weekOfYear .hostless (.whole 3)).outcome .unknown = .ok next ∧
      next = week + 1 := by
  have hbuilt : ∀ day, (day = 1 ∨ day = 3 ∨ day = 4) →
      (earlyIn1446 day).Built .hostless .unknown ∧
        (earlyIn1446 day).ShiftsWithinWeek .hostless .unknown := by
    rintro _ (rfl | rfl | rfl)
    · exact ⟨rfl, shiftsWithinWeek_of_range rfl rfl (by decide)⟩
    · exact ⟨rfl, shiftsWithinWeek_of_range rfl rfl (by decide)⟩
    · exact ⟨rfl, shiftsWithinWeek_of_range rfl rfl (by decide)⟩
  obtain ⟨-, hshift1⟩ := hbuilt 1 (by decide)
  obtain ⟨hbuilt3, hshift3⟩ := hbuilt 3 (by decide)
  obtain ⟨hbuilt4, hshift4⟩ := hbuilt 4 (by decide)
  have hnumber3 : ((earlyIn1446 3).dayNumber .hostless).outcome .unknown = .ok 2460502 := rfl
  have hnumber4 : ((earlyIn1446 4).dayNumber .hostless).outcome .unknown = .ok 2460503 := rfl
  have hweekday4 : ((earlyIn1446 4).weekday .hostless).outcome .unknown = .ok 3 := rfl
  have hthursday : (0 : Int) ≤ 3 ∧ (3 : Int) ≤ 6 := by decide
  obtain ⟨⟨first, last, hbounds⟩, hsame, week, next, weekday, hweek, hnext, hweekday, -,
    hyear⟩ := weeks_laws hthursday hbuilt3 rfl hbuilt4 rfl hnumber3 hnumber4
      (by decide) (by decide) hshift3 hshift4 hshift1 hshift1
  refine ⟨hshift3, hshift4, hshift1, ⟨first, hbounds.startOfWeek, hbounds.starts.weekday⟩, hsame,
    week, next, hweek, hnext, ?_⟩
  rw [hweekday4] at hweekday
  obtain rfl := Except.ok.inj hweekday
  exact (hyear rfl).2 rfl

end LunarDate

end HijriRecurrence
