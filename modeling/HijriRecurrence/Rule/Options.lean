import HijriRecurrence.Value

/-!
# Options of a rule

`RuleOptions` are checked: every list of numbers is in its range, month days are split by sign and
weekdays by ordinal, and the dates belong to the rule's calendar.  The numbers of weekdays, that of
the first day of the week among them, are what the caller made them.  An empty list stands for a
part that is not given.

A `Request` is what a caller asks for, option by option, before any check.  Options that are not
given are null.  `RuleOptions.toRequest` is the request that asks for given options.
-/

namespace HijriRecurrence

/-- Checked options of a rule. -/
structure RuleOptions where
  frequency : Frequency
  start : LunarDate
  interval : Int := 1
  weekStart : Int := 6
  count : Option Int := none
  /-- The last date on which an occurrence may fall. -/
  last : Option LunarDate := none
  timeZone : Value := .null
  /-- Positions among the candidates of a period. -/
  positions : List Int := []
  months : List Int := []
  /-- Days of the month, counted from its start. -/
  monthDays : List Int := []
  /-- Days of the month, counted from its end by negative numbers. -/
  monthDaysFromEnd : List Int := []
  yearDays : List Int := []
  weekNumbers : List Int := []
  /-- Weekdays without an ordinal. -/
  weekdays : List Weekday := []
  /-- Weekdays with an ordinal. -/
  nthWeekdays : List Weekday := []
  hours : List Int := []
  minutes : List Int := []
  seconds : List Int := []
  skip : Skip := .omit
  variant : Variant
deriving Repr

inductive OptionName where
  | frequency | start | interval | weekStart | count | last | timeZone | positions | months
  | monthDays | yearDays | weekNumbers | weekdays | hours | minutes | seconds | skip | calendar
deriving DecidableEq, Repr

namespace OptionName

def all : List OptionName :=
  [frequency, start, interval, weekStart, count, last, timeZone, positions, months, monthDays,
   yearDays, weekNumbers, weekdays, hours, minutes, seconds, skip, calendar]

def text : OptionName → String
  | frequency => "freq"
  | start => "dtstart"
  | interval => "interval"
  | weekStart => "wkst"
  | count => "count"
  | last => "until"
  | timeZone => "tzid"
  | positions => "bysetpos"
  | months => "bymonth"
  | monthDays => "bymonthday"
  | yearDays => "byyearday"
  | weekNumbers => "byweekno"
  | weekdays => "byweekday"
  | hours => "byhour"
  | minutes => "byminute"
  | seconds => "bysecond"
  | skip => "skip"
  | calendar => "calendar"

def ofText? (name : String) : Option OptionName := all.find? fun o => o.text = name

theorem mem_all (o : OptionName) : o ∈ all := by
  cases o <;> decide

theorem ofText?_text (o : OptionName) : ofText? o.text = some o := by
  cases o <;> decide

end OptionName

/-- What a caller asks for, option by option. -/
structure Request where
  value : OptionName → Value := fun _ => .null

namespace Request

def empty : Request := {}

def set (r : Request) (name : OptionName) (value : Value) : Request :=
  ⟨fun other => if other = name then value else r.value other⟩

@[simp] theorem value_set_self (r : Request) (name : OptionName) (value : Value) :
    (r.set name value).value name = value := by
  simp [set]

theorem value_set_of_ne (r : Request) {name other : OptionName} (value : Value)
    (h : other ≠ name) : (r.set name value).value other = r.value other := by
  simp [set, h]

/-- The options that a request gives, with their values. -/
def given (r : Request) : List (OptionName × Value) :=
  (OptionName.all.map fun name => (name, r.value name)).filter fun entry => !entry.2.isNull

/-- The request with some options changed, last change first to count. -/
def merge (r : Request) (changes : List (OptionName × Value)) : Request :=
  changes.foldl (fun r change => r.set change.1 change.2) r

end Request

namespace RuleOptions

/-- All month days of a rule, those from the start of the month first. -/
def allMonthDays (o : RuleOptions) : List Int := o.monthDays ++ o.monthDaysFromEnd

/-- All weekdays of a rule, those without an ordinal first. -/
def allWeekdays (o : RuleOptions) : List Weekday := o.weekdays ++ o.nthWeekdays

def intsValue (ns : List Int) : Value := if ns.isEmpty then .null else .tuple (ns.map .int)

def weekdaysValue (ws : List Weekday) : Value :=
  if ws.isEmpty then .null else .tuple (ws.map .weekday)

def toRequest (o : RuleOptions) : Request where
  value
    | .frequency => .int o.frequency.number
    | .start => .lunar o.start
    | .interval => .int o.interval
    | .weekStart => .int o.weekStart
    | .count => match o.count with
      | some n => .int n
      | none => .null
    | .last => match o.last with
      | some d => .lunar d
      | none => .null
    | .timeZone => o.timeZone
    | .positions => intsValue o.positions
    | .months => intsValue o.months
    | .monthDays => intsValue o.allMonthDays
    | .yearDays => intsValue o.yearDays
    | .weekNumbers => intsValue o.weekNumbers
    | .weekdays => weekdaysValue o.allWeekdays
    | .hours => intsValue o.hours
    | .minutes => intsValue o.minutes
    | .seconds => intsValue o.seconds
    | .skip => .skip o.skip
    | .calendar => .str o.variant.token

/-- All options by name, month days and weekdays of the two kinds apart. -/
def fields (o : RuleOptions) : List (String × Value) :=
  OptionName.all.flatMap fun
    | .monthDays =>
      [("bymonthday", intsValue o.monthDays), ("bynmonthday", intsValue o.monthDaysFromEnd)]
    | .weekdays =>
      [("byweekday", weekdaysValue o.weekdays), ("bynweekday", weekdaysValue o.nthWeekdays)]
    | name => [(name.text, o.toRequest.value name)]

def shown (o : RuleOptions) : String :=
  "RuleOptions(" ++
    ", ".intercalate (o.fields.map fun field => field.1 ++ "=" ++ field.2.shown) ++ ")"

/-- Whether two rules have the same options.  Dates count by their day alone. -/
def sameAs (a b : RuleOptions) : Bool :=
  a.frequency == b.frequency && decide (a.start.toLunarDay = b.start.toLunarDay) &&
  a.interval == b.interval && a.weekStart == b.weekStart && a.count == b.count &&
  decide (a.last.map (·.toLunarDay) = b.last.map (·.toLunarDay)) &&
  a.timeZone.same b.timeZone && a.positions == b.positions && a.months == b.months &&
  a.monthDays == b.monthDays && a.monthDaysFromEnd == b.monthDaysFromEnd &&
  a.yearDays == b.yearDays && a.weekNumbers == b.weekNumbers && a.weekdays == b.weekdays &&
  a.nthWeekdays == b.nthWeekdays && a.hours == b.hours && a.minutes == b.minutes &&
  a.seconds == b.seconds && a.skip == b.skip && a.variant == b.variant

end RuleOptions

end HijriRecurrence
