import HijriRecurrence.Calculation

/-!
# Calendars

A calendar variant answers questions about month lengths and converts between lunar days, civil
dates and day numbers.  `Calendar` is the interface that everything above it is written against.

Questions about lengths may be put to the observed calendar, so they are calculations; conversions
ask nothing and may only fail.
-/

namespace HijriRecurrence

/-- The answers of one calendar variant. -/
structure Calendar where
  variant : Variant
  /-- Number of days of a month. -/
  monthLength : Int → Int → Calculation Quantity
  /-- Number of days of a year. -/
  yearLength : Int → Calculation Quantity
  /-- Whether a year is a leap year. -/
  isLeapYear : Int → Calculation Bool
  /-- The lunar day of a civil date. -/
  ofCivil : CivilDate → Except Error LunarDay
  /-- The civil date of a lunar day. -/
  toCivil : LunarDay → Except Error CivilDate
  /-- The day number of a lunar day. -/
  dayNumber : LunarDay → Except Error Int
  /-- The lunar day of a day number. -/
  ofDayNumber : Int → Except Error LunarDay
  /-- The civil date of a year, a month and a day given as any values. -/
  toCivilOfGiven : Value → Value → Value → Except Error CivilDate
  /-- The day number of a year, a month and a day given as any values. -/
  dayNumberOfGiven : Value → Value → Value → Except Error Int

def allMonths : List Int := [1, 2, 3, 4, 5, 6, 7, 8, 9, 10, 11, 12]

def monthsBefore (month : Int) : List Int := allMonths.filter (· < month)

/-- Refuses a month that is not a number from 1 to 12. -/
def readMonth (month : Value) : Except Error Int :=
  match month.countable? with
  | some n => if 1 ≤ n ∧ n ≤ 12 then .ok n else .error (.badMonth month)
  | none => .error (.badMonth month)

def checkMonth (month : Int) : Except Error Unit :=
  if 1 ≤ month ∧ month ≤ 12 then .ok () else .error (.badMonth (.int month))

/-- Adds the lengths of some months to a number of days, one after the other. -/
def addMonths (length : Int → Calculation Quantity) (total : Quantity) :
    List Int → Calculation Quantity
  | [] => pure total
  | month :: rest => do
    let days ← length month
    let total ← total.plus days
    addMonths length total rest

def sumMonths (length : Int → Calculation Quantity) (months : List Int) : Calculation Quantity :=
  addMonths length (.whole 0) months

/-- The civil date of a day number, within the years 1 to 9999. -/
def civilOfDayNumber (n : Int) : Except Error CivilDate :=
  let g := CivilDate.ofDayNumber n
  if g.year < 1 then .error (.civilBeforeYearOne (.int n))
  else if 9999 < g.year then .error (.civilBeyondEnd g.year)
  else .ok g

/-- Refuses numbers that do not all fit a signed machine word. -/
def checkWords (ns : List Int) : Except Error Unit :=
  if ns.all fun n => decide (-(Error.lastWord + 1) ≤ n) && decide (n ≤ Error.lastWord) then .ok ()
  else .error .numberTooLarge

/-- A date that some numbers make: each part fits a machine word, and the date exists. -/
def CivilDate.checked (g : CivilDate) : Except Error CivilDate := do
  checkWords [g.year, g.month, g.day]
  if g.Valid then return g else throw .notCivil

/-- Whether the parts of a time of day are within their ranges. -/
def CivilDateTime.HasTimeOfDay (g : CivilDateTime) : Prop :=
  0 ≤ g.hour ∧ g.hour ≤ 23 ∧ 0 ≤ g.minute ∧ g.minute ≤ 59 ∧ 0 ≤ g.second ∧ g.second ≤ 59

instance (g : CivilDateTime) : Decidable g.HasTimeOfDay := by
  unfold CivilDateTime.HasTimeOfDay
  infer_instance

/-- A date with a time of day that some numbers make: all parts fit a machine word before any is
looked at further. -/
def CivilDateTime.checked (g : CivilDateTime) : Except Error CivilDateTime := do
  checkWords [g.year, g.month, g.day, g.hour, g.minute, g.second]
  if g.toCivilDate.Valid ∧ g.HasTimeOfDay then return g else throw .notCivil

namespace Calendar

/-- The weekday of a lunar day, Monday being 0. -/
def weekday (cal : Calendar) (d : LunarDay) : Except Error Int :=
  (cal.dayNumber d).map (· % 7)

/-- The lunar day of a civil date with a time of day, which a refusal tells of. -/
def ofCivilTime (cal : Calendar) (g : CivilDateTime) : Except Error LunarDay :=
  (cal.ofCivil g.toCivilDate).mapError fun
    | .hostRefused _ reason => .hostRefused g.isoText reason
    | e => e

def totalLength (cal : Calendar) (year : Int) (months : List Int) : Calculation Quantity :=
  sumMonths (cal.monthLength year) months

/-- Whether a triple names a day of the calendar; a month that the calendar cannot answer for has
no days. -/
def isValidDay (cal : Calendar) (d : LunarDay) : Calculation Bool :=
  if d.year < 1 ∨ d.month < 1 ∨ 12 < d.month ∨ d.day < 1 then pure false
  else tryCatch (do
      let length ← cal.monthLength d.year d.month
      (Quantity.whole d.day).atMost length)
    fun e => if e.kind = .conversionFailure ∨ e.kind = .outOfRange then pure false else throw e

/-- Whether three values are integers that name a day of the calendar. -/
def isValidDate (cal : Calendar) (year month day : Value) : Calculation Bool :=
  match year, month, day with
  | .int y, .int m, .int d => cal.isValidDay ⟨y, m, d⟩
  | _, _, _ => pure false

/-- The month and the day of the month at a position of a year, counted from 1, among the given
months; nothing when they are too short. -/
def locate (cal : Calendar) (year : Int) :
    List Int → Quantity → Calculation (Option (Int × Quantity))
  | [], _ => pure none
  | month :: rest, position => do
    let length ← cal.monthLength year month
    if ← position.atMost length then return some (month, position)
    let position ← position.minus length
    cal.locate year rest position

end Calendar

end HijriRecurrence
