import HijriRecurrence.Rule.Options
import HijriRecurrence.Rule.Weekdays
import HijriRecurrence.Text.Blank

/-!
# Writing rule text

A rule is written as a line for its first date, which names the calendar, and a line of parts, each
a name and a value.  Parts that have their usual value are left out; month days and weekdays of both
kinds share one part each.  There is no text for weekdays without a code (`written`).
-/

namespace HijriRecurrence

open Text

namespace Variant

/-- The name of a variant as a parameter of rule text. -/
def parameter : Variant → String
  | ummAlQura => "HIJRI-UM-AL-QURA"
  | tabular => "HIJRI-TABULAR"

end Variant

namespace RuleOptions

/-- A part of a rule line. -/
def part (name : String) (value : List Char) : List Char := name.toList ++ '=' :: value

/-- A part of a rule line, left out when its value is empty. -/
def optionalPart (name : String) (value : List Char) : List (List Char) :=
  if value.isEmpty then [] else [part name value]

def integersText (ns : List Int) : List Char := joinWith [','] (ns.map integer)

def weekdaysText (ws : List Weekday) : List Char := joinWith [','] (ws.map (·.tokenChars))

def parts (o : RuleOptions) : List (List Char) :=
  [part "FREQ" o.frequency.name.toList] ++
  (if o.interval = 1 then [] else [part "INTERVAL" (integer o.interval)]) ++
  (if o.weekStart = 6 then [] else [part "WKST" (weekdayCode o.weekStart).toList]) ++
  (match o.count with
    | some n => [part "COUNT" (integer n)]
    | none => []) ++
  (match o.last with
    | some d => [part "UNTIL" d.ruleChars]
    | none => []) ++
  optionalPart "BYSETPOS" (integersText o.positions) ++
  optionalPart "BYMONTH" (integersText o.months) ++
  optionalPart "BYMONTHDAY" (integersText o.allMonthDays) ++
  optionalPart "BYYEARDAY" (integersText o.yearDays) ++
  optionalPart "BYWEEKNO" (integersText o.weekNumbers) ++
  optionalPart "BYDAY" (weekdaysText o.allWeekdays) ++
  optionalPart "BYHOUR" (integersText o.hours) ++
  optionalPart "BYMINUTE" (integersText o.minutes) ++
  optionalPart "BYSECOND" (integersText o.seconds) ++
  (if o.timeZone.truthy then [part "TZID" o.timeZone.plain.toList] else []) ++
  (match o.skip with
    | .omit => []
    | skip => [part "SKIP" skip.ruleName.toList])

def partsText (o : RuleOptions) : List Char := joinWith [';'] o.parts

def startLine (o : RuleOptions) : List Char :=
  "DTSTART;CALENDAR=".toList ++ o.variant.parameter.toList ++ ':' :: o.start.ruleChars

def ruleLine (o : RuleOptions) : List Char := "RRULE:".toList ++ o.partsText

/-- Rule text: the line of the first date, if asked for, and the line of the rule. -/
def textChars (o : RuleOptions) (withStart : Bool := true) : List Char :=
  if withStart then o.startLine ++ '\n' :: o.ruleLine else o.ruleLine

/-- A text that names the weekdays of a rule, if all of them have a code. -/
def written (o : RuleOptions) (text : List Char) : Except Error String :=
  Weekday.written (o.weekStart :: o.allWeekdays.map (·.number)) (String.ofList text)

def text (o : RuleOptions) (withStart : Bool := true) : Except Error String :=
  o.written (o.textChars withStart)

end RuleOptions

end HijriRecurrence
