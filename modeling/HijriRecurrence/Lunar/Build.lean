import HijriRecurrence.Context
import HijriRecurrence.Text.Digit

/-!
# Building lunar dates

A lunar date is built from its parts: the ranges of the parts are checked first, then the calendar
says whether the month has the day.  Dates also come from civil dates, from the compact form of rule
text, and from the shapes that callers use (`LunarDate.ofValue`).
-/

namespace HijriRecurrence

open Text

/-- The language that a value names. -/
def Locale.ofValue (value : Value) : Except Error Locale :=
  match value with
  | .str s =>
    match Locale.ofCode? s with
    | some locale => .ok locale
    | none => .error (.unsupportedLocale value)
  | .list _ | .dict _ => .error .unhashable
  | _ => .error (.unsupportedLocale value)

/-- The language that a value names as the key of a table. -/
def Locale.ofKey (value : Value) : Except Error Locale :=
  match Locale.ofValue value with
  | .error (.unsupportedLocale _) => .error .unknownLocaleKey
  | found => found

namespace LunarDate

/-- Refuses parts of a date that are outside their ranges whatever the calendar. -/
def checkParts (d : LunarDate) : Except Error Unit := do
  if d.year < 1 then throw (.beforeFirstYear (.int d.year))
  if d.month < 1 ∨ 12 < d.month then throw (.badMonth (.int d.month))
  if d.day < 1 ∨ 30 < d.day then throw (.badDay d.day)
  if d.hour < 0 ∨ 23 < d.hour then throw (.badTimePart "hour" d.hour 23)
  if d.minute < 0 ∨ 59 < d.minute then throw (.badTimePart "minute" d.minute 59)
  if d.second < 0 ∨ 59 < d.second then throw (.badTimePart "second" d.second 59)

def calendar (ctx : Context) (d : LunarDate) : Calculation Calendar := ctx.serve d.variant

/-- Refuses a day that its month does not have. -/
def checkDay (ctx : Context) (d : LunarDate) : Calculation Unit := do
  let cal ← d.calendar ctx
  let length ← cal.monthLength d.year d.month
  let fits ← (Quantity.whole d.day).atMost length
  if !fits then throw (Error.dayNotInMonth d.toLunarDay length.value d.variant)

/-- The date with the given parts, once they are checked. -/
def build (ctx : Context) (d : LunarDate) : Calculation LunarDate := do
  d.checkParts
  d.checkDay ctx
  return d

/-- The date with the given parts in a named calendar; where none is named, in the default one. -/
def buildNamed (ctx : Context) (name : Option CalendarName) (day : LunarDay)
    (hour minute second : Int) : Calculation LunarDate :=
  match name with
  | none => build ctx { day with hour, minute, second, variant := ctx.defaultVariant }
  | some (.known variant) => build ctx { day with hour, minute, second, variant }
  | some (.unknown given) => do
    checkParts { day with hour, minute, second, variant := ctx.defaultVariant }
    throw (Error.unknownCalendar given)

def withDay (ctx : Context) (d : LunarDate) (day : LunarDay) : Calculation LunarDate :=
  build ctx { d with toLunarDay := day }

def ofCivil (ctx : Context) (g : CivilDate) (name : Option CalendarName) :
    Calculation LunarDate := do
  let variant ← ctx.variantOf name
  let cal ← ctx.serve variant
  let day ← cal.ofCivil g
  build ctx { day with variant }

def ofCivilTime (ctx : Context) (g : CivilDateTime) (name : Option CalendarName) :
    Calculation LunarDate := do
  let variant ← ctx.variantOf name
  let cal ← ctx.serve variant
  let day ← cal.ofCivilTime g
  build ctx { day with hour := g.hour, minute := g.minute, second := g.second, variant }

def today (ctx : Context) (name : Option CalendarName) : Calculation LunarDate :=
  ofCivil ctx ctx.today name

/-! ### Rule text -/

/-- The number that exactly so many digits write. -/
def fixedDigits? (count : Nat) (text : List Char) : Option Int :=
  if text.length = count then (allDigits? text).map Int.ofNat else none

/-- Hour, minute and second in the part of compact rule text after the day: nothing, or the letter T
and six digits, and either way an optional Z. -/
def timeParts? : List Char → Option (Int × Int × Int)
  | [] | ['Z'] => some (0, 0, 0)
  | 'T' :: text =>
    if text.drop 6 = [] ∨ text.drop 6 = ['Z'] then do
      let hour ← fixedDigits? 2 (text.take 2)
      let minute ← fixedDigits? 2 ((text.drop 2).take 2)
      let second ← fixedDigits? 2 ((text.drop 4).take 2)
      return (hour, minute, second)
    else none
  | _ => none

/-- Day and time in the compact form of rule text. -/
def ruleParts? (text : List Char) : Option (LunarDay × Int × Int × Int) := do
  let year ← fixedDigits? 4 (text.take 4)
  let month ← fixedDigits? 2 ((text.drop 4).take 2)
  let day ← fixedDigits? 2 ((text.drop 6).take 2)
  let time ← timeParts? (text.drop 8)
  return (⟨year, month, day⟩, time)

/-- The date that the compact form of rule text writes; blanks around it do not matter. -/
def ofRuleChars (ctx : Context) (text : List Char) (name : Option CalendarName) :
    Calculation LunarDate :=
  match ruleParts? (trim text) with
  | some (day, hour, minute, second) => buildNamed ctx name day hour minute second
  | none => throw (Error.badDateText (String.ofList text))

/-! ### Shapes of dates -/

def partNames : List String := ["year", "month", "day", "hour", "minute", "second"]

/-- The integers of parts; the first part that is none is refused. -/
def readParts : List (String × Value) → Except Error (List Int)
  | [] => .ok []
  | (name, value) :: rest =>
    match value.int? with
    | some n => (readParts rest).map (n :: ·)
    | none => .error (.notInteger name value)

/-- The date with the given parts, year first; parts left out are 0. -/
def ofParts (ctx : Context) (parts : List Value) (name : Option CalendarName) :
    Calculation LunarDate := do
  let given := parts ++ List.replicate (6 - parts.length) (.int 0)
  let ns ← readParts (partNames.zip given)
  match ns with
  | [year, month, day, hour, minute, second] =>
    buildNamed ctx name ⟨year, month, day⟩ hour minute second
  | _ => throw Error.notCivil

/-- The date with the parts that a mapping names; the time may be left out. -/
def ofEntries (ctx : Context) (entries : List (String × Value)) (name : Option CalendarName) :
    Calculation LunarDate :=
  match ["year", "month", "day"].filter fun part => (entries.lookup part).isNone with
  | [] => ofParts ctx (partNames.map fun part => (entries.lookup part).getD (.int 0)) name
  | missing => throw (Error.missingDateParts missing (.dict entries))

/-- The date that a value stands for, in the named calendar.  A lunar date keeps its own calendar
where none is named. -/
def ofValue (ctx : Context) (value : Value) (name : Option CalendarName) :
    Calculation LunarDate :=
  match value with
  | .lunar d =>
    match name with
    | none => pure d
    | some (.known variant) => if d.variant = variant then pure d else build ctx { d with variant }
    | some (.unknown given) => throw (Error.unknownCalendar given)
  | .civil g => ofCivil ctx g name
  | .civilTime g => ofCivilTime ctx g name
  | .dict entries => ofEntries ctx entries name
  | .list items =>
    if 3 ≤ items.length ∧ items.length ≤ 6 then ofParts ctx items name
    else throw (Error.notADate value)
  | .tuple items =>
    if 3 ≤ items.length ∧ items.length ≤ 6 then ofParts ctx items name
    else throw (Error.notADate value)
  | _ => throw (Error.notADate value)

/-- The date with some of its parts replaced by name. -/
def replaced (ctx : Context) (d : LunarDate) (changes : List (String × Value)) :
    Calculation LunarDate :=
  match (changes.map (·.1)).filter fun name => !("calendar" :: partNames).contains name with
  | name :: _ => throw (Error.unknownArgument name)
  | [] =>
    let parts := [d.year, d.month, d.day, d.hour, d.minute, d.second]
    let given := (partNames.zip parts).map fun (part, n) => (changes.lookup part).getD (.int n)
    let name := match changes.lookup "calendar" with
      | some value => CalendarName.ofValue? value
      | none => some (.known d.variant)
    ofParts ctx given name

/-! ### Questions about a date -/

def daysInMonth (ctx : Context) (d : LunarDate) : Calculation Quantity := do
  let cal ← d.calendar ctx
  cal.monthLength d.year d.month

def daysInYear (ctx : Context) (d : LunarDate) : Calculation Quantity := do
  let cal ← d.calendar ctx
  cal.yearLength d.year

def isLeapYear (ctx : Context) (d : LunarDate) : Calculation Bool := do
  let cal ← d.calendar ctx
  cal.isLeapYear d.year

/-- Position of the date in its year, counted from 1. -/
def dayOfYear (ctx : Context) (d : LunarDate) : Calculation Quantity := do
  let cal ← d.calendar ctx
  let before ← cal.totalLength d.year (monthsBefore d.month)
  before.plus (.whole d.day)

def dayNumber (ctx : Context) (d : LunarDate) : Calculation Int := do
  let cal ← d.calendar ctx
  cal.dayNumber d.toLunarDay

def weekday (ctx : Context) (d : LunarDate) : Calculation Int := do
  let cal ← d.calendar ctx
  cal.weekday d.toLunarDay

def toCivil (ctx : Context) (d : LunarDate) : Calculation CivilDate := do
  let cal ← d.calendar ctx
  cal.toCivil d.toLunarDay

def toCivilTime (ctx : Context) (d : LunarDate) : Calculation CivilDateTime := do
  let g ← d.toCivil ctx
  return { g with hour := d.hour, minute := d.minute, second := d.second }

def monthName (d : LunarDate) (locale : Locale) : String := locale.monthName d.month

/-- The date in words; the era is named in English. -/
def describe (d : LunarDate) (locale : Locale) : String :=
  let text := showInt d.day ++ " " ++ d.monthName locale ++ " " ++ showInt d.year
  match locale with
  | .arabic => text
  | .english => text ++ " AH"

end LunarDate

end HijriRecurrence
