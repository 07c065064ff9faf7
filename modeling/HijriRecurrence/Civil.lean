import HijriRecurrence.Text.Integer

/-!
# Civil dates and day numbers

A civil date is a date of the proleptic Gregorian calendar.  Days are numbered consecutively, day
number 0 being a Monday, so that a weekday is a day number modulo seven.

* `dayNumberOf` numbers any triple of integers by the arithmetic rule, checking nothing;
* `CivilDate.ofDayNumber` is the arithmetic rule backwards;
* `daysInCivilMonth` and `CivilDate.Valid` say which triples are dates of the years 1 to 9999.
-/

namespace HijriRecurrence

open Text

/-- A date of the Gregorian calendar. -/
structure CivilDate where
  year : Int
  month : Int
  day : Int
deriving DecidableEq, Repr

/-- A civil date with a time of day. -/
structure CivilDateTime extends CivilDate where
  hour : Int
  minute : Int
  second : Int
deriving DecidableEq, Repr

/-- Day number of 1 January of year 1 less one: a date's ordinal is its day number less this. -/
def civilEpoch : Int := 1721425

/-- The last day's ordinal: 31 December 9999. -/
def lastCivilOrdinal : Int := 3652059

/-- Day number of a year, month and day, with months counted from March so that the leap day comes
last. -/
def dayNumberOf (year month day : Int) : Int :=
  let a := (14 - month) / 12
  let y := year + 4800 - a
  let m := month + 12 * a - 3
  day + (153 * m + 2) / 5 + 365 * y + y / 4 - y / 100 + y / 400 - 32045

namespace CivilDate

def dayNumber (g : CivilDate) : Int := dayNumberOf g.year g.month g.day

/-- Position of a date among all dates, 1 January of year 1 being the first. -/
def ordinal (g : CivilDate) : Int := g.dayNumber - civilEpoch

/-- The date of a day number: whole cycles of 400 years, then of four years, then months from
March. -/
def ofDayNumber (n : Int) : CivilDate :=
  let a := n + 32044
  let b := (4 * a + 3) / 146097
  let c := a - 146097 * b / 4
  let d := (4 * c + 3) / 1461
  let e := c - 1461 * d / 4
  let m := (5 * e + 2) / 153
  { year := 100 * b + d - 4800 + m / 10
    month := m + 3 - 12 * (m / 10)
    day := e - (153 * m + 2) / 5 + 1 }

def ofOrdinal (n : Int) : CivilDate := ofDayNumber (n + civilEpoch)

/-- The date as year, month and day of fixed width. -/
def text (g : CivilDate) : String :=
  showPadded 4 g.year ++ "-" ++ showPadded 2 g.month ++ "-" ++ showPadded 2 g.day

def before (g h : CivilDate) : Bool :=
  g.year < h.year ||
    (g.year == h.year && (g.month < h.month || (g.month == h.month && g.day < h.day)))

end CivilDate

def CivilDateTime.secondOfDay (g : CivilDateTime) : Int := g.hour * 3600 + g.minute * 60 + g.second

/-- The date and the time of day as text, such as 2025-03-01T08:30:00. -/
def CivilDateTime.isoText (g : CivilDateTime) : String :=
  g.text ++ "T" ++ showPadded 2 g.hour ++ ":" ++ showPadded 2 g.minute ++ ":" ++
    showPadded 2 g.second

/-- Whether a year has a 29 February. -/
def isCivilLeapYear (year : Int) : Bool :=
  year % 4 == 0 && (year % 100 != 0 || year % 400 == 0)

def daysInCivilMonth (year month : Int) : Int :=
  if month = 2 then if isCivilLeapYear year then 29 else 28
  else if month = 4 ∨ month = 6 ∨ month = 9 ∨ month = 11 then 30 else 31

/-- Whether a triple names a day of the years 1 to 9999. -/
def CivilDate.Valid (g : CivilDate) : Prop :=
  1 ≤ g.year ∧ g.year ≤ 9999 ∧ 1 ≤ g.month ∧ g.month ≤ 12 ∧
    1 ≤ g.day ∧ g.day ≤ daysInCivilMonth g.year g.month

instance (g : CivilDate) : Decidable g.Valid := by
  unfold CivilDate.Valid
  infer_instance

end HijriRecurrence
