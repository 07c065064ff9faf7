import HijriRecurrence.Calendar.Basic

/-!
# The tabular calendar

A fixed cycle of thirty years and 10631 days: odd months have 30 days, even months 29, and in eleven
leap years of the cycle the last month has 30.

Day numbers start with 1948440, the day of 1 Muharram of year 1.  One way they are a sum: whole
cycles, the offset of the year in its cycle, the offset of the month in its year, and the day.  The
other way they are taken apart by division, by a scan of the year offsets, and by subtracting
months.
-/

namespace HijriRecurrence.Tabular

/-- Positions of the leap years in a cycle, counted from 1. -/
def leapPositions : List Int := [2, 5, 7, 10, 13, 16, 18, 21, 24, 26, 29]

def cycleYears : Int := 30

def cycleDays : Int := 10631

/-- Day number of the first day, 1 Muharram of year 1. -/
def epoch : Int := 1948440

def isLeapYear (year : Int) : Bool := leapPositions.contains ((year - 1) % cycleYears + 1)

/-- Number of days of a month from 1 to 12. -/
def monthDays (year month : Int) : Int :=
  if month = 12 ∧ isLeapYear year then 30 else if month % 2 = 1 then 30 else 29

def yearDays (year : Int) : Int := if isLeapYear year then 355 else 354

def daysBeforeMonth (month : Int) : Int := 29 * (month - 1) + month / 2

/-- Number of days from the start of a cycle to the start of a year of the cycle, the first one
being 0. -/
def yearOffset : Nat → Int
  | 0 => 0
  | position + 1 => yearOffset position + yearDays (position + 1)

def yearOffsets : List Int := (List.range 30).map yearOffset

/-- Number of days of a month, for any month. -/
def monthLength (year month : Int) : Except Error Int := do
  checkMonth month
  return monthDays year month

/-- Whether a triple names a day. -/
def IsDay (d : LunarDay) : Prop :=
  1 ≤ d.year ∧ 1 ≤ d.month ∧ d.month ≤ 12 ∧ 1 ≤ d.day ∧ d.day ≤ monthDays d.year d.month

instance (d : LunarDay) : Decidable (IsDay d) := by
  unfold IsDay
  infer_instance

/-- The sum that numbers a day. -/
def dayNumberOf (d : LunarDay) : Int :=
  epoch + ((d.year - 1) / cycleYears) * cycleDays +
    yearOffsets.getD ((d.year - 1) % cycleYears).toNat 0 + daysBeforeMonth d.month + d.day - 1

/-- The number of a day; a triple that names no day is refused. -/
def dayNumber (d : LunarDay) : Except Error Int := do
  if d.year < 1 then throw (.beforeFirstYear (.int d.year))
  if IsDay d then return dayNumberOf d
  let length ← monthLength d.year d.month
  throw (.noSuchDay d (.int d.year) (.int d.month) length)

/-- The integer of a value that has to be written with a fixed width: texts and fractions cannot be,
and what is neither cannot be written at all. -/
def readPadded (value : Value) : Except Error Int :=
  match value.countable? with
  | some n => .ok n
  | none =>
    if value.amount?.isSome || value.word?.isSome then .error .notCivil else .error .notNumber

/-- The number of a day given as any values: only integers name a day, and the message that refuses
others needs them to be written with a fixed width. -/
def dayNumberOfGiven (year month day : Value) : Except Error Int :=
  match year, month, day with
  | .int y, .int m, .int d => dayNumber ⟨y, m, d⟩
  | _, _, _ => do
    let amount ← (Quantity.ofValue year).amount
    if amount < 1 then throw (.beforeFirstYear year)
    let m ← readMonth month
    let y ← readPadded year
    let d ← readPadded day
    throw (.noSuchDay ⟨y, m, d⟩ year month (monthDays y m))

/-- Month and days left after whole months are taken from a number of days of a year; the last month
takes all that is left. -/
def takeMonths (year : Int) : List Int → Int → Int × Int
  | [], days => (12, days)
  | [month], days => (month, days)
  | month :: next :: rest, days =>
    if monthDays year month ≤ days then takeMonths year (next :: rest) (days - monthDays year month)
    else (month, days)

/-- The day of a day number; a number before the first day is refused. -/
def ofDayNumber (n : Int) : Except Error LunarDay :=
  let days := n - epoch
  if days < 0 then .error (.beforeFirstDay (.int n))
  else
    let remaining := days % cycleDays
    let position := (yearOffsets.takeWhile (· ≤ remaining)).length - 1
    let year := days / cycleDays * cycleYears + position + 1
    let (month, left) := takeMonths year allMonths (remaining - yearOffsets.getD position 0)
    .ok ⟨year, month, left + 1⟩

def ofCivil (g : CivilDate) : Except Error LunarDay := ofDayNumber g.dayNumber

def toCivil (d : LunarDay) : Except Error CivilDate := do civilOfDayNumber (← dayNumber d)

/-- The tabular calendar.  It asks nothing of the observed one. -/
def calendar : Calendar where
  variant := .tabular
  monthLength year month := Calculation.ofExcept ((monthLength year month).map .whole)
  yearLength year := pure (.whole (yearDays year))
  isLeapYear year := pure (isLeapYear year)
  ofCivil := ofCivil
  toCivil := toCivil
  dayNumber := dayNumber
  ofDayNumber := ofDayNumber
  toCivilOfGiven year month day := do civilOfDayNumber (← dayNumberOfGiven year month day)
  dayNumberOfGiven := dayNumberOfGiven

theorem monthLength_of_mem {year month : Int} (h : 1 ≤ month ∧ month ≤ 12) :
    monthLength year month = .ok (monthDays year month) := by
  simp [monthLength, checkMonth, h, pure, Except.pure, bind, Except.bind]

theorem dayNumber_of_isDay {d : LunarDay} (h : IsDay d) : dayNumber d = .ok (dayNumberOf d) := by
  have hy : ¬d.year < 1 := by have := h.1; omega
  simp [dayNumber, h, hy, pure, Except.pure]

end HijriRecurrence.Tabular
