import HijriRecurrence.Lunar.Build
import HijriRecurrence.Rule.Options
import HijriRecurrence.Rule.Weekdays

/-!
# From a request to options

`RuleOptions.ofRequest` checks every option of a request and expands it: single values become lists,
month days are split by sign and weekdays by ordinal, dates of any shape become lunar dates in the
rule's calendar.  A recurrence in place of a list stands for its occurrences.  The first option that
fails is reported by its name, in a fixed order.
-/

namespace HijriRecurrence.RuleOptions

open Text

/-- The bounds of a list of integers: none, or a least and a greatest value, with or without
zero. -/
structure Bounds where
  range : Option (Int × Int)
  zero : Bool := true

def Bounds.allow (b : Bounds) (n : Int) : Bool :=
  (match b.range with
    | none => true
    | some (low, high) => decide (low ≤ n) && decide (n ≤ high)) && (b.zero || n != 0)

def Bounds.hint (b : Bounds) : String :=
  match b.range with
  | none => "Must be an integer"
  | some (low, high) =>
    "Must be between " ++ showInt low ++ " and " ++ showInt high ++
      (if b.zero then "" else " (excluding 0)")

def readItems (name : OptionName) (bounds : Bounds) : List Value → Except Error (List Int)
  | [] => .ok []
  | item :: rest =>
    match item with
    | .int n =>
      if bounds.allow n then (readItems name bounds rest).map (n :: ·)
      else .error (.badListItem name.text item bounds.hint)
    | _ => .error (.badListItem name.text item bounds.hint)

def readInts (ctx : Context) (r : Request) (name : OptionName) (bounds : Bounds) :
    Calculation (List Int) := do
  let items ← ctx.items (r.value name)
  readItems name bounds items

/-- The frequency of a value: a name in any case, or a number. -/
def readFrequency (value : Value) : Except Error Frequency :=
  match value with
  | .null => .error .frequencyMissing
  | .int n =>
    match Frequency.ofNumber? n with
    | some f => .ok f
    | none => .error (.badFrequency value)
  | .str s =>
    match Frequency.all.find? fun f => lower f.name.toList = lower s.toList with
    | some f => .ok f
    | none => .error (.badFrequency value)
  | _ => .error (.badFrequency value)

def readInterval (value : Value) : Except Error Int :=
  match value with
  | .null => .ok 1
  | .int n => if n < 1 then .error (.badInterval value) else .ok n
  | _ => .error (.badInterval value)

/-- The greatest number of occurrences. -/
def readCount (value : Value) : Except Error (Option Int) :=
  match value with
  | .null => .ok none
  | .int n => if n < 0 then .error (.badCount value) else .ok (some n)
  | _ => .error (.badCount value)

def readCalendar (ctx : Context) (value : Value) : Except Error Variant :=
  match value with
  | .null => .ok ctx.defaultVariant
  | .str s =>
    match Variant.ofToken? s with
    | some v => .ok v
    | none => .error (.badRuleCalendar value)
  | _ => .error (.badRuleCalendar value)

/-- What becomes of missing days: a name in any case. -/
def readSkip (value : Value) : Except Error Skip :=
  match value with
  | .null => .ok .omit
  | .skip s => .ok s
  | .str s =>
    match Skip.all.find? fun skip => skip.name.toList = lower s.toList with
    | some skip => .ok skip
    | none => .error (.badSkip value)
  | _ => .error (.badSkip value)

/-- A date in the rule's calendar; invalid input is reported under the option's name. -/
def readDate (ctx : Context) (name : OptionName) (value : Value) (variant : Variant) :
    Calculation LunarDate :=
  tryCatch (LunarDate.ofValue ctx value (some (.known variant))) fun e =>
    if e.kind.isInvalidInput then throw (Error.badOption name.text e) else throw e

/-- The first date of a rule: the one given, or today. -/
def readStart (ctx : Context) (value : Value) (variant : Variant) : Calculation LunarDate :=
  match value with
  | .null => LunarDate.today ctx (some (.known variant))
  | _ => readDate ctx .start value variant

/-- The last date of a rule, if one is given. -/
def readLast (ctx : Context) (value : Value) (variant : Variant) :
    Calculation (Option LunarDate) :=
  match value with
  | .null => pure none
  | _ => some <$> readDate ctx .last value variant

def readWeekStart (value : Value) : Except Error Int :=
  match value with
  | .null => .ok 6
  | _ =>
    match Weekday.ofValue value with
    | .ok w => .ok w.number
    | .error e => .error (.badOption OptionName.weekStart.text e)

def readWeekdayItems : List Value → Except Error (List Weekday)
  | [] => .ok []
  | item :: rest => do
    let w ← Weekday.ofValue item
    let ws ← readWeekdayItems rest
    return w :: ws

def readWeekdays (ctx : Context) (value : Value) : Calculation (List Weekday) := do
  let items ← ctx.items value
  match readWeekdayItems items with
  | .ok ws => return ws
  | .error e => throw (Error.badOption OptionName.weekdays.text e)

def monthDayBounds : Bounds := ⟨some (-30, 30), false⟩

def positionBounds : Bounds := ⟨some (-366, 366), false⟩

def monthBounds : Bounds := ⟨some (1, 12), true⟩

def yearDayBounds : Bounds := ⟨some (-355, 355), false⟩

/-- Bounds of week numbers: any. -/
def weekNumberBounds : Bounds := ⟨none, true⟩

def hourBounds : Bounds := ⟨some (0, 23), true⟩

def sixtyBounds : Bounds := ⟨some (0, 59), true⟩

def ofRequest (ctx : Context) (r : Request) : Calculation RuleOptions := do
  let frequency ← readFrequency (r.value .frequency)
  let interval ← readInterval (r.value .interval)
  let count ← readCount (r.value .count)
  let variant ← readCalendar ctx (r.value .calendar)
  let start ← readStart ctx (r.value .start) variant
  let last ← readLast ctx (r.value .last) variant
  let weekStart ← readWeekStart (r.value .weekStart)
  let monthDays ← readInts ctx r .monthDays monthDayBounds
  let weekdays ← readWeekdays ctx (r.value .weekdays)
  let positions ← readInts ctx r .positions positionBounds
  let months ← readInts ctx r .months monthBounds
  let yearDays ← readInts ctx r .yearDays yearDayBounds
  let weekNumbers ← readInts ctx r .weekNumbers weekNumberBounds
  let hours ← readInts ctx r .hours hourBounds
  let minutes ← readInts ctx r .minutes sixtyBounds
  let seconds ← readInts ctx r .seconds sixtyBounds
  let skip ← readSkip (r.value .skip)
  return {
    frequency, start, interval, weekStart, count, last, positions, months, yearDays, weekNumbers,
    hours, minutes, seconds, skip, variant
    timeZone := if (r.value .timeZone).truthy then r.value .timeZone else .null
    monthDays := monthDays.filter (0 < ·)
    monthDaysFromEnd := monthDays.filter (· < 0)
    weekdays := weekdays.filter fun w => !w.isNth
    nthWeekdays := weekdays.filter (·.isNth) }

/-- The request that named values make; a name that is no option is refused. -/
def requestOfNamed (named : List (String × Value)) : Except Error (List (OptionName × Value)) :=
  match named with
  | [] => .ok []
  | (name, value) :: rest =>
    match OptionName.ofText? name with
    | some option => (requestOfNamed rest).map ((option, value) :: ·)
    | none => .error (.unknownArgument name)

def ofNamed (ctx : Context) (named : List (String × Value)) : Calculation RuleOptions := do
  let changes ← requestOfNamed named
  ofRequest ctx (Request.empty.merge changes)

end HijriRecurrence.RuleOptions
