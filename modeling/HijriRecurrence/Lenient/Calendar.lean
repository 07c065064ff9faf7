import HijriRecurrence.Calendar.Backend
import HijriRecurrence.Lenient.Civil

/-!
# Calendars asked with values of any kind

A year may be given as a fraction that happens to be whole, a month as a truth value, a civil date
as a lunar date with the same numbers.  The functions here say what a calendar answers then; on
integers and civil dates they are the functions of the calendar itself.
-/

namespace HijriRecurrence

namespace Tabular

/-- Whether a year that is a fraction is a leap year: its place in the cycle, rounded, has to be one
of the leap places.  Infinity has no place. -/
def isOddLeapYear (year : Rat) : Bool :=
  if Binary64.overflow ≤ year ∨ year ≤ -Binary64.overflow then false
  else
    let passed := Binary64.round53 (year - 1)
    let position := Binary64.round53
      (Binary64.round53 (passed - cycleYears * (passed / cycleYears).floor) + 1)
    position.den == 1 && leapPositions.contains position.num

def isLeapYearOf (year : Value) : Except Error Bool :=
  match year.countable? with
  | some y => .ok (isLeapYear y)
  | none => (Quantity.ofValue year).amount.map isOddLeapYear

@[simp] theorem isLeapYearOf_int (year : Int) :
    isLeapYearOf (.int year) = .ok (isLeapYear year) := rfl

/-- Number of days of a month from 1 to 12 of a year of any kind, which matters for the last month
only. -/
def monthDaysOf (year : Value) (month : Int) : Except Error Int :=
  if month = 12 then (isLeapYearOf year).map fun leap => if leap then 30 else 29
  else .ok (monthDays 1 month)

def yearDaysOf (year : Value) : Except Error Int :=
  (isLeapYearOf year).map fun leap => if leap then 355 else 354

/-- Year, month and day of a day number of any kind: of a fraction, the year and the day are
fractions too. -/
def ofDayNumberGiven (n : Value) : Except Error (List Value) :=
  match n.countable? with
  | some k =>
    match ofDayNumber k with
    | .ok d => .ok [.int d.year, .int d.month, .int d.day]
    | .error (.beforeFirstDay _) => .error (.beforeFirstDay n)
    | .error e => .error e
  | none => do
    let q ← (Quantity.ofValue n).amount
    if q < epoch then throw (.beforeFirstDay n)
    let d ← ofDayNumber q.floor
    return [.float d.year, .int d.month, .float (Binary64.round53 (d.day + (q - q.floor)))]

end Tabular

/-- The lunar day of a value that has the numbers of a civil date.  The observed calendar looks only
at civil dates that exist. -/
def Calendar.ofCivilNumbers (cal : Calendar) (value : Value) : Except Error LunarDay :=
  match value with
  | .civil g => cal.ofCivil g
  | .civilTime g => cal.ofCivilTime g
  | .lunar d =>
    let g : CivilDate := ⟨d.year, d.month, d.day⟩
    if cal.variant = .ummAlQura ∧ 9999 < d.year then
      .error (.hostRefused d.isoText ("year " ++ Text.showInt d.year ++ " is out of range"))
    else if cal.variant = .ummAlQura ∧ ¬g.Valid then
      .error (.hostRefused d.isoText "day is out of range for month")
    else
      (cal.ofCivil g).mapError fun
        | .hostRefused _ reason => .hostRefused d.isoText reason
        | e => e
  | _ => .error .lacksPart

namespace Backend

/-- Number of days of a month of a year, both of any kind, found by looking for its last days.  A
search for a fraction, or for the end of a short month of one, fails. -/
def probeMonthOfGiven (host : Host) (year month : Value) : Except Error Int :=
  match Observed.toCivilOfGiven host year month (.int 30) with
  | .ok _ => .ok 30
  | .error e =>
    if e.kind = .conversionFailure then
      (Observed.toCivilOfGiven host year month (.int 29)).map fun _ => 29
    else .error e

/-- What a backend says of the length of a month, the year and the month being any values.  They are
looked up in a cache as they are. -/
def monthLengthOfGiven (host : Host) (backend : Backend) (year month : Value) :
    Except Error Quantity × Backend :=
  match year, month with
  | .int y, .int m => backend.monthLength host y m
  | _, _ =>
    match readMonth month, backend with
    | .error e, _ => (.error e, backend)
    | .ok m, tabular => ((Tabular.monthDaysOf year m).map .whole, tabular)
    | .ok _, observed none => ((probeMonthOfGiven host year month).map .whole, observed none)
    | .ok _, observed (some cache) =>
      if !year.isKey then (.error .unhashable, backend)
      else
        (cache.lengthOf (.ofValue (.tuple [year, month])) fun _ =>
          probeMonthOfGiven host year month).map id (observed ∘ some)

/-- Steps with a backend, each of which may change its cache and may fail. -/
abbrev Steps (α : Type) := ExceptT Error (StateM Backend) α

instance : MonadLift (Except Error) Steps := ⟨fun outcome => ExceptT.mk (pure outcome)⟩

def askLength (host : Host) (year month : Value) : Steps Quantity :=
  fun backend => backend.monthLengthOfGiven host year month

/-- The lengths of some months of a year of any kind added to a number of days. -/
def addMonthsOfGiven (host : Host) (year : Value) (total : Quantity) : List Int → Steps Quantity
  | [] => pure total
  | month :: rest => do
    let length ← askLength host year (.int month)
    let total ← total.plus length
    addMonthsOfGiven host year total rest

/-- The month and the day of the month at a position of a year of any kind, among the given
months. -/
def locateOfGiven (host : Host) (year : Value) :
    List Int → Quantity → Steps (Option (Int × Quantity))
  | [], _ => pure none
  | month :: rest, position => do
    let length ← askLength host year (.int month)
    if ← position.atMost length then return some (month, position)
    let position ← position.minus length
    locateOfGiven host year rest position

def yearLengthOfGiven (host : Host) (backend : Backend) (year : Value) :
    Except Error Quantity × Backend :=
  match year, backend with
  | .int y, _ => backend.yearLength host y
  | _, tabular => ((Tabular.yearDaysOf year).map .whole, tabular)
  | _, observed _ => addMonthsOfGiven host year (.whole 0) allMonths backend

def isLeapYearOfGiven (host : Host) (backend : Backend) (year : Value) :
    Except Error Bool × Backend :=
  match year, backend with
  | .int y, _ => backend.isLeapYear host y
  | _, tabular => (Tabular.isLeapYearOf year, tabular)
  | _, observed _ =>
    let (length, backend) := backend.monthLengthOfGiven host year (.int 12)
    (length.map (·.equals 30), backend)

@[simp] theorem monthLengthOfGiven_int (host : Host) (backend : Backend) (year month : Int) :
    backend.monthLengthOfGiven host (.int year) (.int month) =
      backend.monthLength host year month := rfl

@[simp] theorem yearLengthOfGiven_int (host : Host) (backend : Backend) (year : Int) :
    backend.yearLengthOfGiven host (.int year) = backend.yearLength host year := rfl

@[simp] theorem isLeapYearOfGiven_int (host : Host) (backend : Backend) (year : Int) :
    backend.isLeapYearOfGiven host (.int year) = backend.isLeapYear host year := rfl

/-- The civil date of a year, a month and a day of any kind. -/
def toCivilOfGiven (host : Host) (backend : Backend) : Value → Value → Value →
    Except Error CivilDate :=
  (backend.calendar host).toCivilOfGiven

/-- The day number of a year, a month and a day of any kind. -/
def dayNumberOfGiven (host : Host) (backend : Backend) : Value → Value → Value →
    Except Error Int :=
  (backend.calendar host).dayNumberOfGiven

/-- The lunar day of a value that has the numbers of a civil date. -/
def ofCivilNumbers (host : Host) (backend : Backend) (value : Value) : Except Error LunarDay :=
  (backend.calendar host).ofCivilNumbers value

/-- Year, month and day of a day number of any kind. -/
def ofDayNumberGiven (host : Host) (backend : Backend) (n : Value) : Except Error (List Value) :=
  match backend with
  | tabular => Tabular.ofDayNumberGiven n
  | observed _ => do
    let d ← Observed.ofCivil host (← civilOfGiven n)
    return [.int d.year, .int d.month, .int d.day]

end Backend

end HijriRecurrence
