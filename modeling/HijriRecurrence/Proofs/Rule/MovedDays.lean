import HijriRecurrence.Proofs.Tabular.AlikeYears
import HijriRecurrence.Proofs.Tabular.PeriodDays

/-!
# Days moved to another year

What a rule of months or years proposes in a year hangs on two things, the lengths of the months and
the weekdays.  So in a year like it the rule proposes the same days, moved by the years between
(`daysOfPeriod_moved`).  The first day after the year, onto which a day may be pushed, moves along.
-/

namespace HijriRecurrence

/-! ### Days moved by years -/

namespace LunarDay

variable {years : Int}

/-- The same day of another year. -/
def moved (years : Int) (d : LunarDay) : LunarDay := ⟨d.year + years, d.month, d.day⟩

theorem moved_lt_moved {a b : LunarDay} : a.moved years < b.moved years ↔ a < b := by
  simp only [lt_def, moved]
  omega

theorem insertInto_moved (d : LunarDay) (days : List LunarDay) :
    (d.moved years).insertInto (days.map (moved years)) =
      (d.insertInto days).map (moved years) := by
  induction days with
  | nil => rfl
  | cons e rest ih =>
    simp only [List.map_cons, insertInto, moved_lt_moved]
    split
    · rfl
    · split
      · rw [ih, List.map_cons]
      · rfl

/-- Days that are moved keep their order. -/
theorem sorted_moved (days : List LunarDay) :
    sorted (days.map (moved years)) = (sorted days).map (moved years) := by
  induction days with
  | nil => rfl
  | cons d rest ih =>
    show (d.moved years).insertInto (sorted (rest.map (moved years))) = _
    rw [ih, insertInto_moved]
    rfl

end LunarDay

namespace Tabular

open LunarDay (moved)

variable {year years : Int}

/-! ### Days of alike years -/

section Moved

variable (h : Alike year (year + years))
include h

omit h in
theorem firstOfNextMonth_moved (month : Int) :
    firstOfNextMonth (year + years) month = (firstOfNextMonth year month).moved years := by
  unfold firstOfNextMonth moved
  split
  · exact LunarDay.ext_fields (by dsimp only; omega) rfl rfl
  · rfl

theorem resolve_moved (month day : Int) (skip : Skip) :
    resolve (year + years) month day skip = (resolve year month day skip).map (moved years) := by
  unfold resolve
  rw [h.monthDays_eq, firstOfNextMonth_moved]
  split
  · rfl
  · split
    · rfl
    · cases skip <;> rfl

theorem fromEnd_moved (month offset : Int) :
    fromEnd (year + years) month offset = (fromEnd year month offset).map (moved years) := by
  unfold fromEnd
  rw [h.monthDays_eq]
  split <;> rfl

theorem nthWeekday_moved (month : Int) (w : Weekday) :
    nthWeekday (year + years) month w = (nthWeekday year month w).map (moved years) := by
  unfold nthWeekday
  rw [h.monthDays_eq, h.weekdayOf_eq, Option.map_map]
  rfl

theorem daysOfMonth_moved (month : Int) :
    daysOfMonth (year + years) month = (daysOfMonth year month).map (moved years) := by
  unfold daysOfMonth
  rw [h.monthDays_eq, List.map_map]
  rfl

theorem clamp_moved (month day : Int) :
    clamp (year + years) month day = (clamp year month day).moved years := by
  unfold clamp
  rw [h.monthDays_eq]
  rfl

theorem locate_moved (months : List Int) (position : Int) :
    locate (year + years) months position = (locate year months position).map (moved years) := by
  induction months generalizing position with
  | nil => rfl
  | cons m rest ih =>
    unfold locate
    rw [h.monthDays_eq]
    split
    · rfl
    · exact ih _

theorem yearDay_moved (offset : Int) :
    yearDay (year + years) offset = (yearDay year offset).map (moved years) := by
  unfold yearDay
  rw [h.yearDays_eq]
  dsimp only
  generalize (if 0 < offset then offset else yearDays year + offset + 1) = position
  split
  · exact locate_moved h _ _
  · rfl

end Moved

end Tabular

namespace RuleOptions

open Tabular
open LunarDay (moved)

variable {ctx : Context} {answers : Answers} {o : RuleOptions} {year years : Int}

/-- In alike years a rule proposes the same days of a month. -/
theorem daysInMonth_moved (h : Alike year (year + years)) (month usualDay : Int) :
    o.daysInMonth (year + years) month usualDay =
      (o.daysInMonth year month usualDay).map (moved years) := by
  unfold daysInMonth
  split
  · simp only [resolve_moved h, List.map_filterMap]
  · split
    · simp only [fromEnd_moved h, List.map_filterMap]
    · split
      · simp only [nthWeekday_moved h, List.map_filterMap]
      · split
        · rw [daysOfMonth_moved h, List.filter_map]
          refine congrArg (List.map _) (List.filter_congr fun d hd => ?_)
          obtain ⟨i, -, rfl⟩ := List.mem_map.1 hd
          exact congrArg o.weekdayNumbers.contains (h.weekdayOf_eq month ((i : Int) + 1))
        · rw [clamp_moved h]
          rfl

variable {cursor : LunarDay} (h : Alike cursor.year (cursor.year + years))
include h

theorem usualDaysOfYear_moved :
    o.usualDaysOfYear (cursor.moved years) = (o.usualDaysOfYear cursor).map (moved years) := by
  unfold usualDaysOfYear
  split
  · exact daysInMonth_moved h _ _
  · split
    · show o.yearDays.filterMap (Tabular.yearDay (cursor.year + years)) = _
      simp only [List.map_filterMap, yearDay_moved h]
    · rfl

/-- Days of alike years fall on the same weekdays, and so do the first days after these years. -/
theorem onWeekday_moved {d : LunarDay}
    (hd : d.year = cursor.year ∨ d = firstOfNextMonth cursor.year cursor.month) :
    o.onWeekday (d.moved years) = o.onWeekday d := by
  refine congrArg o.weekdayNumbers.contains ?_
  have hsame {e : LunarDay} (he : e.year = cursor.year) :
      weekdayOf (e.moved years) = weekdayOf e := by
    unfold moved
    rw [he, h.weekdayOf_eq, ← he]
  rcases hd with hyear | rfl
  · exact hsame hyear
  · by_cases hlast : cursor.month = 12
    · rw [firstOfNextMonth, if_pos hlast, moved]
      dsimp only
      rw [show cursor.year + 1 + years = cursor.year + years + 1 by omega, h.weekdayOf_next_eq]
    · rw [firstOfNextMonth, if_neg hlast]
      exact hsame rfl

/-- In alike years a yearly rule proposes the same days. -/
theorem daysInYear_moved (ho : o.Normalized ctx answers) (hc : IsDay cursor) :
    o.daysInYear (cursor.moved years) = (o.daysInYear cursor).map (moved years) := by
  unfold daysInYear
  split
  · rw [List.map_flatMap]
    refine congrArg (List.flatMap · _) (funext fun month => ?_)
    exact daysInMonth_moved h month cursor.day
  · split
    · exact usualDaysOfYear_moved h
    · rw [usualDaysOfYear_moved h, List.filter_map]
      refine congrArg (List.map _) (List.filter_congr fun d hd => ?_)
      exact onWeekday_moved h (isDay_of_mem_usualDaysOfYear ho hc hd).2

theorem proposedDays_moved (ho : o.Normalized ctx answers) (hc : IsDay cursor)
    (hf : o.frequency = .yearly ∨ o.frequency = .monthly) :
    o.proposedDays (cursor.moved years) = (o.proposedDays cursor).map (moved years) := by
  unfold proposedDays
  rcases hf with hf | hf
  · rw [hf]
    exact daysInYear_moved h ho hc
  · simp only [hf]
    show (if o.allowsMonth cursor.month then _ else _) = _
    split
    · exact daysInMonth_moved h _ _
    · rfl

omit h in
theorem pickDays_moved (days : List LunarDay) (positions : List Int) :
    pickDays (days.map (moved years)) positions = (pickDays days positions).map (moved years) := by
  unfold pickDays
  rw [← LunarDay.sorted_moved, List.map_filterMap]
  refine congrArg (fun pick => LunarDay.sorted (positions.filterMap pick)) ?_
  funext position
  simp only [List.length_map, List.getElem?_map]
  generalize (if 0 < position then position - 1 else (days.length : Int) + position) = index
  split
  · rfl
  · rfl

/-- **What a rule proposes in a year it proposes in every year like it.** -/
theorem daysOfPeriod_moved (ho : o.Normalized ctx answers) (hc : IsDay cursor)
    (hf : o.frequency = .yearly ∨ o.frequency = .monthly) :
    o.daysOfPeriod (cursor.moved years) = (o.daysOfPeriod cursor).map (moved years) := by
  unfold daysOfPeriod
  rw [proposedDays_moved h ho hc hf, LunarDay.sorted_moved]
  split
  · rfl
  · exact pickDays_moved _ _

end RuleOptions

end HijriRecurrence
