import HijriRecurrence.Proofs.Tabular.PeriodDays
import HijriRecurrence.Proofs.Tabular.Weekdays

/-!
# The parts of a rule that name days

A rule of months or years finds its days by walking through a month or a year.  Whether a day is
among them can be told from the day alone: from its number in the month, from either end, from its
weekday and its position among the same weekdays, or from its position in the year
(`MatchesPart`).

* `mem_daysInMonth_iff` — the days proposed in a month are those of the month that match the part;
* `mem_yearDays_iff` — the same for positions in a year.

Both are about rules that name days by one part alone and omit days that a month lacks.
-/

namespace HijriRecurrence

open Tabular

/-- The ordinal of a weekday, when it is looked for by a number that is not zero. -/
theorem Weekday.getD_ordinal?_eq_iff {w : Weekday} {n : Int} (hn : n ≠ 0) :
    w.ordinal?.getD 0 = n ↔ w.ordinal = some n := by
  unfold ordinal?
  cases w.ordinal with
  | none => simp [Ne.symm hn]
  | some m =>
    by_cases hm : m = 0
    · simp [hm, Ne.symm hn, Option.filter]
    · simp [hm, Option.filter]

namespace Tabular

variable {year month : Int} {v : LunarDay}

theorem resolve_omit_eq_some_iff (hv : IsDay v) {day : Int} :
    resolve year month day .omit = some v ↔ v.year = year ∧ v.month = month ∧ v.day = day := by
  obtain ⟨-, -, -, hd, hd'⟩ := hv
  unfold resolve
  constructor
  · intro h
    split at h
    · exact absurd h (by simp)
    · split at h
      · rw [← Option.some.inj h]
        exact ⟨rfl, rfl, rfl⟩
      · exact absurd h (by simp)
  · rintro ⟨rfl, rfl, rfl⟩
    rw [if_neg (by omega), if_pos hd']

theorem fromEnd_eq_some_iff (hv : IsDay v) {offset : Int} :
    fromEnd year month offset = some v ↔
      v.year = year ∧ v.month = month ∧ v.day - monthDays v.year v.month - 1 = offset := by
  obtain ⟨-, -, -, hd, hd'⟩ := hv
  unfold fromEnd
  constructor
  · intro h
    split at h
    · rw [← Option.some.inj h]
      exact ⟨rfl, rfl, by dsimp only; omega⟩
    · exact absurd h (by simp)
  · rintro ⟨rfl, rfl, rfl⟩
    rw [if_pos (by omega)]
    exact congrArg some (LunarDay.ext_fields rfl rfl (by dsimp only; omega))

/-- A day has a position among the same weekdays of its month, counted from the front or, by
negative numbers, from the back. -/
def HasPosition (d : LunarDay) (n : Int) : Prop :=
  0 < n ∧ (d.day + 6) / 7 = n ∨ n < 0 ∧ (monthDays d.year d.month - d.day + 1 + 6) / 7 = -n

theorem nthWeekday_eq_some_iff (hv : IsDay v) {w : Weekday} :
    nthWeekday year month w = some v ↔
      v.year = year ∧ v.month = month ∧ weekdayOf v = w.number ∧
        ∃ n ∈ w.ordinal, HasPosition v n := by
  have hlength := (monthDays_bounds year month).1
  obtain ⟨-, -, -, hd, hd'⟩ := hv
  unfold nthWeekday HasPosition
  rw [Option.map_eq_some_iff]
  constructor
  · rintro ⟨day, hday, rfl⟩
    obtain ⟨-, hweekday, hposition⟩ := (nth?_weekdaysOfMonth (by omega)).1 hday
    have hne : w.ordinal?.getD 0 ≠ 0 := by omega
    refine ⟨rfl, rfl, ?_, w.ordinal?.getD 0, (Weekday.getD_ordinal?_eq_iff hne).1 rfl, hposition⟩
    rw [weekdayOf_mk]
    exact hweekday
  · rintro ⟨rfl, rfl, hweekday, n, hn, hposition⟩
    have hne : n ≠ 0 := by omega
    refine ⟨v.day, (nth?_weekdaysOfMonth (by omega)).2 ?_, rfl⟩
    rw [(Weekday.getD_ordinal?_eq_iff hne).2 hn]
    refine ⟨⟨hd, hd'⟩, ?_, hposition⟩
    rw [← hweekday]
    exact (weekdayOf_mk v.year v.month v.day).symm

theorem yearDay_eq_some_iff (hv : IsDay v) {offset : Int} :
    yearDay year offset = some v ↔ v.year = year ∧
      (dayOfYear v = offset ∨ dayOfYear v - yearDays v.year - 1 = offset) := by
  have hbounds := dayOfYear_bounds hv
  have hsome {position : Int} (h : 1 ≤ position ∧ position ≤ yearDays year) :
      locate year allMonths position = some v ↔ v.year = year ∧ dayOfYear v = position := by
    constructor
    · intro hloc
      have hyear := year_of_locate hloc
      exact ⟨hyear, (locate_eq_some_iff hv h.1 h.2 hyear).1 hloc⟩
    · rintro ⟨hyear, hposition⟩
      exact (locate_eq_some_iff hv h.1 h.2 hyear).2 hposition
  obtain ⟨position, hposition⟩ :
      ∃ p, (if 0 < offset then offset else yearDays year + offset + 1) = p := ⟨_, rfl⟩
  unfold yearDay
  dsimp only
  rw [hposition]
  constructor
  · intro h
    by_cases hrange : 1 ≤ position ∧ position ≤ yearDays year
    · rw [if_pos hrange, hsome hrange] at h
      obtain ⟨rfl, hday⟩ := h
      refine ⟨rfl, ?_⟩
      split at hposition <;> omega
    · rw [if_neg hrange] at h
      exact absurd h (by simp)
  · rintro ⟨rfl, hday⟩
    have hequal : dayOfYear v = position := by
      split at hposition <;> omega
    rw [if_pos (by omega), hsome (by omega)]
    exact ⟨rfl, hequal⟩

end Tabular

/-- The parts of a rule that name days. -/
inductive DayPart where
  | monthDays | monthDaysFromEnd | nthWeekdays | weekdays | yearDays
deriving DecidableEq, Repr

namespace RuleOptions

variable {o : RuleOptions} {part : DayPart} {v : LunarDay}

def gives (o : RuleOptions) : DayPart → Bool
  | .monthDays => !o.monthDays.isEmpty
  | .monthDaysFromEnd => !o.monthDaysFromEnd.isEmpty
  | .nthWeekdays => !o.nthWeekdays.isEmpty
  | .weekdays => !o.weekdays.isEmpty
  | .yearDays => !o.yearDays.isEmpty

def MatchesPart (o : RuleOptions) (d : LunarDay) : DayPart → Prop
  | .monthDays => d.day ∈ o.monthDays
  | .monthDaysFromEnd => d.day - Tabular.monthDays d.year d.month - 1 ∈ o.monthDaysFromEnd
  | .nthWeekdays => ∃ w ∈ o.nthWeekdays, weekdayOf d = w.number ∧ ∃ n ∈ w.ordinal, HasPosition d n
  | .weekdays => weekdayOf d ∈ o.weekdayNumbers
  | .yearDays => dayOfYear d ∈ o.yearDays ∨ dayOfYear d - Tabular.yearDays d.year - 1 ∈ o.yearDays

/-- **The days proposed in a month are those of the month that match the part.** -/
theorem mem_daysInMonth_iff (hskip : o.skip = .omit)
    (honly : ∀ other, o.gives other = true ↔ other = part) (hpart : part ≠ .yearDays)
    {year month usualDay : Int} (hy : 1 ≤ year) (hm : 1 ≤ month ∧ month ≤ 12) (hv : IsDay v) :
    v ∈ o.daysInMonth year month usualDay ↔
      v.year = year ∧ v.month = month ∧ o.MatchesPart v part := by
  have hgives : ∀ other, o.gives other = decide (other = part) := by
    intro other
    rw [Bool.eq_iff_iff, honly, decide_eq_true_iff]
  have hdays : (!o.monthDays.isEmpty) = _ := hgives .monthDays
  have hfromEnd : (!o.monthDaysFromEnd.isEmpty) = _ := hgives .monthDaysFromEnd
  have hnth : (!o.nthWeekdays.isEmpty) = _ := hgives .nthWeekdays
  have hweekdays : (!o.weekdays.isEmpty) = _ := hgives .weekdays
  unfold daysInMonth MatchesPart
  rw [hdays, hfromEnd, hnth, hweekdays]
  cases part with
  | monthDays =>
    rw [decide_eq_true rfl, if_pos rfl, hskip, List.mem_filterMap]
    constructor
    · rintro ⟨day, hmem, hday⟩
      obtain ⟨hyear, hmonth, rfl⟩ := (resolve_omit_eq_some_iff hv).1 hday
      exact ⟨hyear, hmonth, hmem⟩
    · rintro ⟨hyear, hmonth, hmem⟩
      exact ⟨v.day, hmem, (resolve_omit_eq_some_iff hv).2 ⟨hyear, hmonth, rfl⟩⟩
  | monthDaysFromEnd =>
    rw [decide_eq_false (by decide), if_neg Bool.false_ne_true, decide_eq_true rfl, if_pos rfl,
      List.mem_filterMap]
    constructor
    · rintro ⟨offset, hmem, hday⟩
      obtain ⟨hyear, hmonth, rfl⟩ := (fromEnd_eq_some_iff hv).1 hday
      exact ⟨hyear, hmonth, hmem⟩
    · rintro ⟨hyear, hmonth, hmem⟩
      exact ⟨_, hmem, (fromEnd_eq_some_iff hv).2 ⟨hyear, hmonth, rfl⟩⟩
  | nthWeekdays =>
    rw [decide_eq_false (by decide), if_neg Bool.false_ne_true, decide_eq_false (by decide),
      if_neg Bool.false_ne_true, decide_eq_true rfl, if_pos rfl, List.mem_filterMap]
    constructor
    · rintro ⟨w, hmem, hday⟩
      obtain ⟨hyear, hmonth, hw⟩ := (nthWeekday_eq_some_iff hv).1 hday
      exact ⟨hyear, hmonth, w, hmem, hw⟩
    · rintro ⟨hyear, hmonth, w, hmem, hw⟩
      exact ⟨w, hmem, (nthWeekday_eq_some_iff hv).2 ⟨hyear, hmonth, hw⟩⟩
  | weekdays =>
    rw [decide_eq_false (by decide), if_neg Bool.false_ne_true, decide_eq_false (by decide),
      if_neg Bool.false_ne_true, decide_eq_false (by decide), if_neg Bool.false_ne_true,
      decide_eq_true rfl, if_pos rfl, List.mem_filter, mem_daysOfMonth hy hm, List.contains_iff_mem]
    constructor
    · rintro ⟨⟨-, hyear, hmonth⟩, hw⟩
      exact ⟨hyear, hmonth, hw⟩
    · rintro ⟨hyear, hmonth, hw⟩
      exact ⟨⟨hv, hyear, hmonth⟩, hw⟩
  | yearDays => exact absurd rfl hpart

/-- **The days proposed by positions in a year are those of the year that match.** -/
theorem mem_yearDays_iff {year : Int} (hv : IsDay v) :
    v ∈ o.yearDays.filterMap (Tabular.yearDay year) ↔
      v.year = year ∧ o.MatchesPart v .yearDays := by
  rw [List.mem_filterMap]
  unfold MatchesPart
  constructor
  · rintro ⟨offset, hmem, hday⟩
    obtain ⟨hyear, rfl | rfl⟩ := (yearDay_eq_some_iff hv).1 hday
    · exact ⟨hyear, Or.inl hmem⟩
    · exact ⟨hyear, Or.inr hmem⟩
  · rintro ⟨hyear, hmem | hmem⟩
    · exact ⟨_, hmem, (yearDay_eq_some_iff hv).2 ⟨hyear, Or.inl rfl⟩⟩
    · exact ⟨_, hmem, (yearDay_eq_some_iff hv).2 ⟨hyear, Or.inr rfl⟩⟩

end RuleOptions

end HijriRecurrence
