import HijriRecurrence.Rule.Candidates

/-!
# The parts that propose days

The days that a rule proposes in a month come from one of its parts, the first one that is given.
Here each part stands by itself: `dayFromEnd`, `datesOnNthWeekdays`, `daysOnWeekdays` and `usualDayOf`.
What holds of the days of a month is proved for each of them, and `monthCandidates_eq` puts them
together.

In the same way a day of a year is looked up by one calculation, from whichever end its position is
counted: `yearDayAt`, with `yearDay_eq`.
-/

namespace HijriRecurrence.RuleOptions

/-- The day of a month of some length that is counted from the end of the month. -/
def dayFromEnd (year month : Int) (length : Quantity) (offset : Int) :
    Calculation (Option Candidate) := do
  let day ← length.fromEnd offset
  return if ← (Quantity.whole 1).atMost day then some ⟨year, month, day⟩ else none

/-- The dates of a month on the rule's weekdays with ordinal. -/
def datesOnNthWeekdays (ctx : Context) (o : RuleOptions) (year month : Int) :
    Calculation (List LunarDate) :=
  Calculation.filterMap (fun w =>
    LunarDate.nthWeekdayOfMonth ctx year month w.number (w.ordinal?.getD 0)
      (some (.known o.variant))) o.nthWeekdays

/-- The days of a month of some length on the rule's weekdays without ordinal. -/
def daysOnWeekdays (o : RuleOptions) (cal : Calendar) (year month : Int) (length : Quantity) :
    Calculation (List Candidate) := do
  let first ← cal.weekday ⟨year, month, 1⟩
  let count ← length.count
  let days := (List.range count.toNat).map fun (i : Nat) => (i : Int) + 1
  return (days.filter fun day => o.weekdayNumbers.contains ((first + day - 1) % 7)).map
    fun day => .ofDay ⟨year, month, day⟩

/-- A usual day of a month, cut to the length of the month. -/
def usualDayOf (year month usualDay : Int) (length : Quantity) : Calculation (List Candidate) := do
  let fits ← (Quantity.whole usualDay).atMost length
  return [⟨year, month, if fits then .whole usualDay else length⟩]

/-- **The days of a month come from the first part that is given.** -/
theorem monthCandidates_eq (ctx : Context) (o : RuleOptions) (cal : Calendar)
    (year month usualDay : Int) :
    o.monthCandidates ctx cal year month usualDay =
      if !o.monthDays.isEmpty then
        Calculation.filterMap (fun day => resolveDay cal year month (.whole day) o.skip) o.monthDays
      else cal.monthLength year month >>= fun length =>
        if !o.monthDaysFromEnd.isEmpty then
          Calculation.filterMap (dayFromEnd year month length) o.monthDaysFromEnd
        else if !o.nthWeekdays.isEmpty then
          o.datesOnNthWeekdays ctx year month >>= fun dates =>
            pure (dates.map fun d => .ofDay d.toLunarDay)
        else if !o.weekdays.isEmpty then o.daysOnWeekdays cal year month length
        else usualDayOf year month usualDay length :=
  rfl

/-- The day at a position of a year of some length, counted from the start of the year. -/
def yearDayAt (cal : Calendar) (year : Int) (length position : Quantity) :
    Calculation (Option Candidate) := do
  if !(← position.isWithin length) then return none
  let found ← cal.locate year allMonths position
  return found.map fun (month, day) => ⟨year, month, day⟩

/-- A position counted from the end of a year is looked up from its start. -/
theorem yearDay_eq (cal : Calendar) (year offset : Int) :
    yearDay cal year offset = cal.yearLength year >>= fun length =>
      if 0 < offset then yearDayAt cal year length (.whole offset)
      else liftM (length.fromEnd offset) >>= fun position => yearDayAt cal year length position := by
  unfold yearDay
  refine congrArg _ (funext fun length => ?_)
  split <;> rfl

end HijriRecurrence.RuleOptions
