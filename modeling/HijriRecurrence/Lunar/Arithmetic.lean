import HijriRecurrence.Lunar.DayIndex

/-!
# Arithmetic on lunar dates

Shifts by days, months and years, differences, and the ends of months, years and weeks.  A date is
worked on in its own calendar and keeps its time of day.

* A shift by months or years keeps the day of the month, or takes the last day of a month that is
  too short (`addMonths`); it can be told to give nothing instead.
* Weeks start on a weekday of the caller's choice, Sunday being the usual one.
-/

namespace HijriRecurrence.LunarDate

def addDays (ctx : Context) (d : LunarDate) (days : Quantity) : Calculation LunarDate := do
  if days.equals 0 then return d
  let index ← DayIndex.ofLunar ctx d
  let index ← DayIndex.shift index days
  let cal ← d.calendar ctx
  DayIndex.toLunar ctx index cal (some (.known d.variant))

/-- The date moved into another month.  A day that the month does not have becomes its last day, or
nothing when `clamp` is off. -/
def moveTo (ctx : Context) (d : LunarDate) (year month : Int) (clamp : Bool) :
    Calculation (Option LunarDate) := do
  if year < 1 then throw (Error.shiftBeforeFirstYear d (.int year))
  if year = d.year ∧ month = d.month then return some d
  let cal ← d.calendar ctx
  let length ← cal.monthLength year month
  if ← (Quantity.whole d.day).atMost length then
    return some (← d.withDay ctx ⟨year, month, d.day⟩)
  if clamp then
    let last ← length.day
    return some (← d.withDay ctx ⟨year, month, last⟩)
  return none

/-- Months from 1 Muharram of year 1 to the first of a date's month. -/
def monthIndex (d : LunarDay) : Int := (d.year - 1) * 12 + (d.month - 1)

def addMonths (ctx : Context) (d : LunarDate) (months : Int) (clamp : Bool := true) :
    Calculation (Option LunarDate) :=
  let total := monthIndex d.toLunarDay + months
  d.moveTo ctx (total / 12 + 1) (total % 12 + 1) clamp

def addYears (ctx : Context) (d : LunarDate) (years : Int) (clamp : Bool := true) :
    Calculation (Option LunarDate) :=
  d.moveTo ctx (d.year + years) d.month clamp

/-- Days from the second date to the first. -/
def diffDays (ctx : Context) (a b : LunarDate) : Calculation Int := do
  let later ← a.dayNumber ctx
  let earlier ← b.dayNumber ctx
  return later - earlier

/-- The days of a month that fall on a weekday. -/
def weekdaysOfMonth (firstWeekday length weekday : Int) : List Int :=
  ((List.range length.toNat).map fun (i : Nat) => (i : Int) + 1).filter fun day =>
    (firstWeekday + day - 1) % 7 == weekday

/-- The entry at a position of a list, counted from 1 at the front and from -1 at the back. -/
def nth? {α : Type} (items : List α) (n : Int) : Option α :=
  if n = 0 ∨ items.length < n.natAbs then none
  else if 0 < n then items[(n - 1).toNat]? else items[(items.length + n).toNat]?

/-- The date of a weekday at a position among the same weekdays of a month. -/
def nthWeekdayOfMonth (ctx : Context) (year month weekday n : Int) (name : Option CalendarName) :
    Calculation (Option LunarDate) := do
  if n = 0 then return none
  let variant ← ctx.variantOf name
  let cal ← ctx.serve variant
  let length ← cal.monthLength year month
  let first ← cal.weekday ⟨year, month, 1⟩
  let days ← length.count
  match nth? (weekdaysOfMonth first days weekday) n with
  | none => return none
  | some day => return some (← build ctx { year, month, day, variant })

def startOfMonth (ctx : Context) (d : LunarDate) : Calculation LunarDate :=
  d.withDay ctx ⟨d.year, d.month, 1⟩

def endOfMonth (ctx : Context) (d : LunarDate) : Calculation LunarDate := do
  let length ← d.daysInMonth ctx
  let last ← length.day
  d.withDay ctx ⟨d.year, d.month, last⟩

def startOfYear (ctx : Context) (d : LunarDate) : Calculation LunarDate :=
  d.withDay ctx ⟨d.year, 1, 1⟩

def endOfYear (ctx : Context) (d : LunarDate) : Calculation LunarDate := do
  let cal ← d.calendar ctx
  let length ← cal.monthLength d.year 12
  let last ← length.day
  d.withDay ctx ⟨d.year, 12, last⟩

def startOfWeek (ctx : Context) (d : LunarDate) (weekStart : Quantity) : Calculation LunarDate := do
  let weekday ← DayIndex.weekday ctx d
  let passed ← (Quantity.whole weekday).minus weekStart
  let passed ← passed.inWeek
  let days ← (Quantity.whole 0).minus passed
  d.addDays ctx days

def endOfWeek (ctx : Context) (d : LunarDate) (weekStart : Quantity) : Calculation LunarDate := do
  let weekEnd ← weekStart.plus (.whole 6)
  let weekEnd ← weekEnd.inWeek
  let weekday ← DayIndex.weekday ctx d
  let left ← weekEnd.minus (.whole weekday)
  let left ← left.inWeek
  d.addDays ctx left

/-- Number of the date's week in its year.  Days before the first day on which a week starts form
week 1. -/
def weekOfYear (ctx : Context) (d : LunarDate) (weekStart : Quantity) : Calculation Int := do
  let first ← d.withDay ctx ⟨d.year, 1, 1⟩
  let weekday ← DayIndex.weekday ctx first
  let lead ← weekStart.minus (.whole weekday)
  let lead ← lead.inWeek
  let position ← d.dayOfYear ctx
  if ← position.atMost lead then return 1
  let days ← position.minus lead
  let weeks ← days.weeks
  return weeks + (if (Quantity.whole 0).before lead then 1 else 0)

def sameWeek (ctx : Context) (a b : LunarDate) (weekStart : Quantity) : Calculation Bool := do
  let first ← a.startOfWeek ctx weekStart
  let second ← b.startOfWeek ctx weekStart
  return decide (first.toLunarDay = second.toLunarDay)

def sameDay (a b : LunarDate) : Bool := decide (a.toLunarDay = b.toLunarDay)

/-! ### Positions in a year -/

def daysBeforeMonth (ctx : Context) (year : Int) (month : Value) (name : Option CalendarName) :
    Calculation Quantity := do
  let variant ← ctx.variantOf name
  let cal ← ctx.serve variant
  let month ← readMonth month
  cal.totalLength year (monthsBefore month)

/-- Month and day at a position of a year.  A calendar whose months do not add up to its year can
miss the position. -/
def ofDayOfYear (ctx : Context) (year : Int) (position : Quantity) (name : Option CalendarName) :
    Calculation (Int × Quantity) := do
  let variant ← ctx.variantOf name
  let cal ← ctx.serve variant
  let length ← cal.yearLength year
  if !(← position.isWithin length) then
    throw (Error.badDayOfYear position.value length.value)
  match ← cal.locate year allMonths position with
  | some found => return found
  | none => throw (Error.lengthsDisagree (.int year))

/-- Number of days from 1 Muharram of year 1 to the start of a year. -/
def daysBeforeYear (ctx : Context) (year : Int) (name : Option CalendarName) : Calculation Int := do
  if year < 1 then throw (Error.badYear (.int year))
  let variant ← ctx.variantOf name
  let cal ← ctx.serve variant
  let start ← cal.dayNumber ⟨year, 1, 1⟩
  return start - Tabular.epoch

end HijriRecurrence.LunarDate
