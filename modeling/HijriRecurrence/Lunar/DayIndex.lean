import HijriRecurrence.Lunar.Build

/-!
# The day index

Dates of both calendars lie on one scale: a day with number `n` starts at index `n - 1/2`, and the
time of day adds a fraction.  An index is a rational number kept to 53 bits, so every operation
rounds; the whole day is recovered by rounding down and the second by rounding to the nearest.
-/

namespace HijriRecurrence.DayIndex

open Binary64

def secondsPerDay : Int := 86400

def fraction (seconds : Int) : Except Error Rat := finite (seconds / secondsPerDay)

/-- The index of a second of the day with the given number. -/
def ofDayNumber (n seconds : Int) : Except Error Rat := do
  let midnight := round53 ((← finite n) - 1 / 2)
  return round53 (midnight + (← fraction seconds))

/-- Day number and second of the day of an index. -/
def split (index : Rat) : Int × Int :=
  let shifted := round53 (index + 1 / 2)
  let n := shifted.floor
  let seconds := nearest (round53 (round53 (shifted - n) * secondsPerDay))
  if secondsPerDay ≤ seconds then (n + 1, seconds - secondsPerDay) else (n, seconds)

/-- The index that lies some days later. -/
def shift (index : Rat) (days : Quantity) : Except Error Rat := do
  finite (index + (← days.rounded))

/-- The index of a civil date at midnight. -/
def ofCivil (g : CivilDate) : Except Error Rat := ofDayNumber g.dayNumber 0

def ofCivilTime (g : CivilDateTime) : Except Error Rat :=
  ofDayNumber g.dayNumber g.secondOfDay

def toCivilTime (index : Rat) : Except Error CivilDateTime := do
  let (n, seconds) := split index
  let g ← civilOfDayNumber n
  return { g with hour := seconds / 3600, minute := seconds % 3600 / 60, second := seconds % 60 }

def ofLunarIn (cal : Calendar) (d : LunarDate) : Except Error Rat := do
  ofDayNumber (← cal.dayNumber d.toLunarDay) d.secondOfDay

def ofLunar (ctx : Context) (d : LunarDate) : Calculation Rat := do
  let cal ← d.calendar ctx
  ofLunarIn cal d

/-- The lunar date of an index, in some calendar; it is tagged with the named variant, or else with
the calendar's own. -/
def toLunar (ctx : Context) (index : Rat) (cal : Calendar) (name : Option CalendarName) :
    Calculation LunarDate := do
  let (n, seconds) := split index
  let day ← cal.ofDayNumber n
  LunarDate.buildNamed ctx ((name.filter (·.isGiven)).getD (.known cal.variant)) day
    (seconds / 3600) (seconds % 3600 / 60) (seconds % 60)

/-- Weekday of a lunar date by its index, Monday being 0. -/
def weekday (ctx : Context) (d : LunarDate) : Calculation Int := do
  let index ← ofLunar ctx d
  return (round53 (index + 1 / 2)).floor % 7

end HijriRecurrence.DayIndex
