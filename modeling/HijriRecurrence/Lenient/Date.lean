import HijriRecurrence.Lenient.Calendar
import HijriRecurrence.Lenient.Value

/-!
# Dates worked on with values of any kind

Shifts by fractions of months, weekdays that are no number, years that are truth values: the
functions here say what comes of them.  Mostly a message about the first part of the result that is
not an integer, but a shift by nothing gives the date itself, and what nothing equals is not found.
On integers they are the functions on dates.
-/

namespace HijriRecurrence

/-! ### Shared backends -/

/-- Takes some steps with the shared backend that serves a variant. -/
def Registry.lend {α : Type} (registry : Registry) (host : Host) (variant : Variant)
    (steps : Backend.Steps α) : Except Error α × Registry :=
  let (number, registry) := registry.fetch host variant
  let (outcome, backend) := steps (registry.backend number)
  (outcome, registry.update number backend)

namespace LunarDate

/-! ### Civil dates -/

/-- The date of a value that has the numbers of a civil date. -/
def ofCivilNumbers (ctx : Context) (value : Value) (name : Option CalendarName) :
    Calculation LunarDate :=
  match value with
  | .civil g => ofCivil ctx g name
  | .civilTime g => ofCivilTime ctx g name
  | _ => do
    let variant ← ctx.variantOf name
    let cal ← ctx.serve variant
    let day ← cal.ofCivilNumbers value
    build ctx { day with variant }

/-- The date that a value is, with some of its parts replaced by name. -/
def replacedOfGiven (ctx : Context) (value : Value) (changes : List (String × Value)) :
    Calculation LunarDate :=
  match value with
  | .lunar d => d.replaced ctx changes
  | _ => throw Error.notNumber

/-! ### Shifts -/

/-- The date a fraction of months later: none but itself, when the fraction is nothing. -/
def addOddMonths (d : LunarDate) (months : Rat) : Except Error LunarDate := do
  let total := Binary64.saturate (monthIndex d.toLunarDay + months)
  if Binary64.overflow ≤ total ∨ total ≤ -Binary64.overflow then
    throw (Error.badMonth (.other "nan"))
  let years := (total / 12).floor
  let year := Binary64.round53 (years + 1)
  let month := Binary64.round53 (Binary64.round53 (total - 12 * years) + 1)
  if year < 1 then throw (Error.shiftBeforeFirstYear d (.float year))
  if year = d.year ∧ month = d.month then return d
  throw (Error.badMonth (.float month))

/-- The date some months later, the number being of any kind. -/
def addMonthsOfGiven (ctx : Context) (d : LunarDate) (months : Quantity) (clamp : Bool) :
    Calculation (Option LunarDate) :=
  match months.whole? with
  | some n => d.addMonths ctx n clamp
  | none => do
    let q ← months.amount
    let shifted ← d.addOddMonths q
    return some shifted

/-- The date some years later, the number being of any kind.  A fraction of years gives no date but
the date itself, when the fraction is nothing. -/
def addYearsOfGiven (ctx : Context) (registry : Registry) (d : LunarDate) (years : Quantity)
    (clamp : Bool) : Except Error (Option LunarDate) × Registry :=
  match years.whole?, years.amount with
  | some n, _ => registry.run ctx.host (d.addYears ctx n clamp)
  | none, .error e => (.error e, registry)
  | none, .ok q =>
    let year := Binary64.saturate (d.year + q)
    if year < 1 then (.error (.shiftBeforeFirstYear d (.float year)), registry)
    else if year = d.year then (.ok (some d), registry)
    else
      registry.lend ctx.host d.variant do
        let length ← Backend.askLength ctx.host (.float year) (.int d.month)
        if clamp || (← (Quantity.whole d.day).atMost length) then
          throw (Error.notInteger "year" (.float year))
        return none

/-! ### Weekdays and years -/

/-- The day of a month at a position among the days with a weekday, both of any kind: a weekday that
equals no number is not found. -/
def pickWeekday (firstWeekday length : Int) (weekday n : Value) : Except Error (Option Int) := do
  let wanted := [0, 1, 2, 3, 4, 5, 6].filter fun (i : Int) => weekday.same (.int i)
  let matching := wanted.flatMap (weekdaysOfMonth firstWeekday length)
  let position ← (Quantity.ofValue n).amount
  if (matching.length : Rat) < position ∨ position < -(matching.length : Rat) then return none
  return nth? matching (← (Quantity.ofValue n).count)

/-- The date of a weekday at a position among the same weekdays of a month, all of any kind.  In a
year or a month that is no integer there is no date to be found. -/
def nthWeekdayOfGiven (ctx : Context) (registry : Registry) (year month weekday n : Value)
    (name : Option CalendarName) : Except Error (Option LunarDate) × Registry :=
  match year, month, weekday, n with
  | .int y, .int m, .int w, .int n =>
    registry.run ctx.host (nthWeekdayOfMonth ctx y m w n name)
  | .int y, .int m, _, _ => registry.run ctx.host do
    if n.same (.int 0) then return none
    let variant ← ctx.variantOf name
    let cal ← ctx.serve variant
    let length ← cal.monthLength y m
    let first ← cal.weekday ⟨y, m, 1⟩
    let days ← length.count
    match ← pickWeekday first days weekday n with
    | none => return none
    | some day => return some (← build ctx { year := y, month := m, day, variant })
  | _, _, _, _ =>
    if n.same (.int 0) then (.ok none, registry)
    else
      match ctx.variantOf name with
      | .error e => (.error e, registry)
      | .ok variant => registry.lend ctx.host variant do
        let length ← Backend.askLength ctx.host year month
        let first ← (← get).dayNumberOfGiven ctx.host year month (.int 1)
        let days ← length.count
        match ← pickWeekday (first % 7) days weekday n with
        | none => return none
        | some _ =>
          throw (if year.int?.isSome then Error.notInteger "month" month
            else Error.notInteger "year" year)

/-- Number of days of a year before a month, both of any kind. -/
def daysBeforeMonthOfGiven (ctx : Context) (registry : Registry) (year month : Value)
    (name : Option CalendarName) : Except Error Quantity × Registry :=
  match year, ctx.variantOf name with
  | .int y, _ => registry.run ctx.host (daysBeforeMonth ctx y month name)
  | _, .error e => (.error e, registry)
  | _, .ok variant => registry.lend ctx.host variant do
    let m ← readMonth month
    Backend.addMonthsOfGiven ctx.host year (.whole 0) (monthsBefore m)

/-- Month and day at a position of a year, both of any kind. -/
def ofDayOfGivenYear (ctx : Context) (registry : Registry) (year : Value) (position : Quantity)
    (name : Option CalendarName) : Except Error (Int × Quantity) × Registry :=
  match year, ctx.variantOf name with
  | .int y, _ => registry.run ctx.host (ofDayOfYear ctx y position name)
  | _, .error e => (.error e, registry)
  | _, .ok variant => registry.lend ctx.host variant do
    let askYear : Backend.Steps Quantity := fun backend =>
      backend.yearLengthOfGiven ctx.host year
    let length ← askYear
    if !(← position.isWithin length) then
      throw (Error.badDayOfYear position.value length.value)
    match ← Backend.locateOfGiven ctx.host year allMonths position with
    | some found => return found
    | none => throw (Error.lengthsDisagree year)

/-- Number of days from 1 Muharram of year 1 to the start of a year of any kind. -/
def daysBeforeYearOf (ctx : Context) (year : Value) (name : Option CalendarName) :
    Calculation Int :=
  match year with
  | .int y => daysBeforeYear ctx y name
  | _ => do
    let q ← (Quantity.ofValue year).amount
    if q < 1 then throw (Error.badYear year)
    let variant ← ctx.variantOf name
    let cal ← ctx.serve variant
    let start ← cal.dayNumberOfGiven year (.int 1) (.int 1)
    return start - Tabular.epoch

/-! ### Integers -/

@[simp] theorem addMonthsOfGiven_whole (ctx : Context) (d : LunarDate) (n : Int) (clamp : Bool) :
    d.addMonthsOfGiven ctx (.whole n) clamp = d.addMonths ctx n clamp := rfl

@[simp] theorem addYearsOfGiven_whole (ctx : Context) (registry : Registry) (d : LunarDate)
    (n : Int) (clamp : Bool) :
    addYearsOfGiven ctx registry d (.whole n) clamp =
      registry.run ctx.host (d.addYears ctx n clamp) := rfl

@[simp] theorem nthWeekdayOfGiven_int (ctx : Context) (registry : Registry)
    (year month weekday n : Int) (name : Option CalendarName) :
    nthWeekdayOfGiven ctx registry (.int year) (.int month) (.int weekday) (.int n) name =
      registry.run ctx.host (nthWeekdayOfMonth ctx year month weekday n name) := rfl

@[simp] theorem daysBeforeMonthOfGiven_int (ctx : Context) (registry : Registry) (year : Int)
    (month : Value) (name : Option CalendarName) :
    daysBeforeMonthOfGiven ctx registry (.int year) month name =
      registry.run ctx.host (daysBeforeMonth ctx year month name) := rfl

@[simp] theorem ofDayOfGivenYear_int (ctx : Context) (registry : Registry) (year : Int)
    (position : Quantity) (name : Option CalendarName) :
    ofDayOfGivenYear ctx registry (.int year) position name =
      registry.run ctx.host (ofDayOfYear ctx year position name) := rfl

@[simp] theorem daysBeforeYearOf_int (ctx : Context) (year : Int) (name : Option CalendarName) :
    daysBeforeYearOf ctx (.int year) name = daysBeforeYear ctx year name := rfl

end LunarDate

/-- The index of a lunar date, in the calendar of a backend if one is given. -/
def DayIndex.ofLunarBy (ctx : Context) (d : LunarDate) (backend : Option Backend) :
    Calculation Rat :=
  match backend with
  | some backend => ofLunarIn (backend.calendar ctx.host) d
  | none => ofLunar ctx d

/-- The day of a month that a request for a day stands for, as year, month and day of any kind. -/
def Backend.resolveDayOfGiven (host : Host) (backend : Backend) (year month : Value)
    (day : Quantity) (skip : Skip) : Except Error (Option (List Value)) × Backend :=
  let steps : Backend.Steps (Option (List Value)) := do
    if !(← (Quantity.whole 1).atMost day) then return none
    let length ← Backend.askLength host year month
    if ← day.atMost length then return some [year, month, day.value]
    match skip with
    | .backward => return some [year, month, length.value]
    | .forward =>
      let m ← readMonth month
      if m = 12 then return some [(← (Quantity.ofValue year).plus (.whole 1)).value, .int 1, .int 1]
      return some [year, .int (m + 1), .int 1]
    | .omit => return none
  match year, month with
  | .int y, .int m => backend.run host fun cal => do
    let found ← resolveDay cal y m day skip
    return found.map fun c => c.value.items
  | _, _ => steps backend

end HijriRecurrence
