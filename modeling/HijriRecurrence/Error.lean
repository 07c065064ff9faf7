import HijriRecurrence.Value

/-!
# What can go wrong

`Error` lists every cause of a failure, with what is needed to tell of it.  `Error.kind` sorts the
causes into kinds, which is what callers react to, and `Error.message` puts a cause into words.

The kinds are nested in one place only: a rule that is invalid is also invalid input
(`ErrorKind.isInvalidInput`).
-/

namespace HijriRecurrence

open Text

/-- The kinds of failure that callers tell apart. -/
inductive ErrorKind where
  /-- A structural or range violation in the parts of a date or in options. -/
  | invalidInput
  /-- Rule options or rule text that were refused. -/
  | invalidRule
  /-- A well-formed day that does not exist in its calendar. -/
  | invalidDate
  /-- A date or day number outside the supported range. -/
  | outOfRange
  /-- A date that the observed calendar cannot resolve. -/
  | conversionFailure
  /-- A civil date that cannot be built. -/
  | badValue
  /-- A number beyond a machine's range. -/
  | overflow
  /-- An argument that does not exist or is of no use. -/
  | badArgument
  /-- A key that is not there. -/
  | missingKey
  /-- A value that lacks the part asked of it. -/
  | missingPart
  /-- Answers of a calendar that contradict each other. -/
  | contradiction
  /-- Something that is made of itself. -/
  | endless
deriving DecidableEq, Repr

def ErrorKind.isInvalidInput : ErrorKind → Bool
  | .invalidInput | .invalidRule => true
  | _ => false

/-- Every cause of a failure. -/
inductive Error where
  -- Settings
  | unknownSettings (names : List String)
  | calendarSetting (name : String) (value : Value)
  | cacheSize (value : Value)
  | unknownArgument (name : String)
  | unhashable
  | notNumber
  | lacksPart
  | notDates
  | madeOfItself
  | cacheTooSmall
  -- Calendars
  | unknownCalendar (value : Value)
  | badMonth (month : Value)
  | beforeFirstYear (year : Value)
  | noSuchDay (day : LunarDay) (year month : Value) (length : Int)
  | beforeFirstDay (dayNumber : Value)
  | dayBeyondMonths (day : Value)
  | hostRefused (date reason : String)
  | noCivilDay (day : LunarDay)
  -- Civil dates
  | civilBeforeYearOne (dayNumber : Value)
  | civilBeyondEnd (number : Int)
  | notCivil
  | numberTooLarge
  -- Lunar dates
  | notInteger (field : String) (value : Value)
  | badDay (day : Int)
  | badTimePart (name : String) (value last : Int)
  | dayNotInMonth (day : LunarDay) (length : Value) (variant : Variant)
  | badDateText (text : String)
  | unsupportedLocale (value : Value)
  | unknownLocaleKey
  | missingDateParts (names : List String) (value : Value)
  | notADate (value : Value)
  -- Date arithmetic
  | shiftBeforeFirstYear (date : LunarDate) (year : Value)
  | badDayOfYear (day length : Value)
  | lengthsDisagree (year : Value)
  | badYear (year : Value)
  -- Weekdays
  | badWeekdayText (text : Value)
  | zeroOrdinal (text : String)
  | badWeekday (value : Value)
  | noWeekday (number : Int)
  -- Rule options
  | frequencyMissing
  | badFrequency (value : Value)
  | badInterval (value : Value)
  | badCount (value : Value)
  | badRuleCalendar (value : Value)
  | badSkip (value : Value)
  | badListItem (name : String) (value : Value) (hint : String)
  | badOption (name : String) (cause : Error)
  -- Rule text
  | malformedPart (part : String)
  | unknownPart (name : String)
  | badPart (name value : String)
  | frequencyPartMissing
  | badPropertyLine (line : String)
  | unsupportedCalendar (name calendar : String)
  | unsupportedParameter (name parameter : String)
  | badPropertyValue (name value : String)
  | noDateInLine (name line : String)
  | unsupportedLine (line : String)
  | noRuleInText
  | emptyText
  | unsupportedProperty (name : String)
  | noRuleLine
deriving Repr

namespace Error

/-- The largest number that fits a signed machine word of 32 bits. -/
def lastWord : Int := 2147483647

def kind : Error → ErrorKind
  | unknownSettings _ | calendarSetting .. | cacheSize _ | unknownCalendar _ | badMonth _
  | notInteger .. | badDay _ | badTimePart .. | badDateText _ | unsupportedLocale _
  | missingDateParts .. | notADate _ | badDayOfYear .. | badWeekdayText _ | zeroOrdinal _
  | badWeekday _ => .invalidInput
  | noSuchDay .. | dayBeyondMonths _ | dayNotInMonth .. => .invalidDate
  | beforeFirstYear _ | beforeFirstDay _ | civilBeforeYearOne _ | shiftBeforeFirstYear ..
  | badYear _ => .outOfRange
  | hostRefused .. | noCivilDay _ => .conversionFailure
  | civilBeyondEnd n => if n ≤ lastWord then .badValue else .overflow
  | notCivil => .badValue
  | numberTooLarge => .overflow
  | unknownArgument _ | unhashable | notNumber | notDates => .badArgument
  | cacheTooSmall | unknownLocaleKey | noWeekday _ => .missingKey
  | lacksPart => .missingPart
  | lengthsDisagree _ => .contradiction
  | madeOfItself => .endless
  | frequencyMissing | badFrequency _ | badInterval _ | badCount _ | badRuleCalendar _ | badSkip _
  | badListItem .. | badOption .. | malformedPart _ | unknownPart _ | badPart .. |
    frequencyPartMissing | badPropertyLine _ | unsupportedCalendar .. | unsupportedParameter ..
  | badPropertyValue .. | noDateInLine .. | unsupportedLine _ | noRuleInText | emptyText
  | unsupportedProperty _ | noRuleLine => .invalidRule

/-- Whether reading a part of rule text turns the failure into a refusal of that part. -/
def isRefusal (e : Error) : Bool :=
  match e.kind with
  | .overflow | .badArgument | .missingPart | .contradiction | .endless => false
  | _ => true

/-- The line that lists the calendars. -/
def validCalendars : String := "\nValid calendars: " ++ Variant.tokens ++ "\n"

def message : Error → String
  | unknownSettings names =>
    "Unknown configuration option(s): " ++ ", ".intercalate names ++ "\nValid options: " ++
      "cache_enabled, cache_max_size, default_calendar, fallback_calendar, use_host_calendar\n"
  | calendarSetting name value => "Invalid " ++ name ++ ": " ++ value.shown ++ validCalendars
  | cacheSize value => "cache_max_size must be a positive integer, got " ++ value.shown
  | unknownArgument name => "Unknown argument: " ++ name
  | unhashable => "A list or mapping is no key"
  | notNumber => "Only a number can be compared or added here"
  | lacksPart => "The value has no such part"
  | notDates => "No dates can be drawn from this"
  | madeOfItself => "The dates of a set cannot be drawn from the set itself"
  | cacheTooSmall => "A map of negative size holds nothing"
  | unknownCalendar value => "Unknown calendar variant: " ++ value.shown ++ validCalendars
  | badMonth month =>
    "Invalid Hijri month: " ++ month.shown ++ ". Must be between 1 and 12."
  | beforeFirstYear year =>
    "Hijri year " ++ year.plain ++ " precedes the calendar epoch (1 AH)"
  | noSuchDay day year month length =>
    "Invalid Hijri date: " ++ day.text ++ "\nMonth " ++ month.plain ++ " of " ++ year.plain ++
      " has " ++ showInt length ++ " days"
  | beforeFirstDay n =>
    "Julian Day Number " ++ n.plain ++ " is before the Hijri epoch (1 Muharram 1 AH)"
  | dayBeyondMonths day => "Invalid Hijri day: " ++ day.plain ++ ". Must be between 1 and 30."
  | badDay day => "Invalid Hijri day: " ++ showInt day ++ ". Must be between 1 and 30."
  | hostRefused date reason =>
    "Umm al-Qura calendar cannot convert " ++ date ++ ": " ++ reason ++
      "\nHint: use calendar='islamic-tbla' for dates outside the Umm al-Qura tables"
  | noCivilDay day =>
    "No Gregorian date matches Hijri " ++ day.text ++ " in the Umm al-Qura calendar"
  | civilBeforeYearOne n =>
    "Julian Day Number " ++ n.plain ++
      " falls before 0001-01-01 and has no datetime.date representation"
  | civilBeyondEnd n => showInt n ++ " is beyond the year 9999"
  | notCivil => "There is no such civil date"
  | numberTooLarge => "The number is too large"
  | notInteger field value =>
    "LunarDate " ++ field ++ " must be an integer, got " ++ value.shown
  | badTimePart name value last =>
    "Invalid " ++ name ++ ": " ++ showInt value ++ ". Must be between 0 and " ++ showInt last ++ "."
  | dayNotInMonth day length variant =>
    "Invalid Hijri date: " ++ day.text ++ "\nMonth " ++ showInt day.month ++ " of " ++
      showInt day.year ++ " has " ++ length.plain ++ " days in the " ++ variant.token ++
      " calendar.\nHint: use skip='backward' or skip='forward' on a rule to resolve missing " ++
      "days instead of constructing them"
  | badDateText text =>
    "Invalid RRULE date string: " ++ quote text ++
      "\nExpected YYYYMMDD or YYYYMMDDTHHMMSS, e.g. 14460901"
  | unsupportedLocale value =>
    "Unsupported locale: " ++ value.shown ++ ". Supported locales: en, ar"
  | unknownLocaleKey => "Unknown language"
  | missingDateParts names value =>
    "Hijri date mapping is missing " ++ ", ".intercalate names ++ ": " ++ value.shown
  | notADate value =>
    "Cannot interpret " ++ value.shown ++ " as a Hijri date.\nUse a LunarDate, a datetime.date, " ++
      "or a (year, month, day) tuple.\nExample: LunarDate(1446, 9, 1)"
  | shiftBeforeFirstYear date year =>
    "Shifting " ++ date.text ++ " lands in year " ++ year.plain ++
      ", before the calendar epoch (1 AH)"
  | badDayOfYear day length =>
    "Invalid day of year: " ++ day.plain ++ ". Must be between 1 and " ++ length.plain ++ "."
  | lengthsDisagree year => "The months of " ++ year.shown ++ " do not add up to its length"
  | badYear year => "Invalid Hijri year: " ++ year.plain ++ ". Must be >= 1."
  | badWeekdayText text =>
    "Invalid weekday: " ++ text.shown ++ "\nExpected a two-letter code (" ++
      ", ".intercalate weekdayCodes ++ ") with an optional ordinal, e.g. FR or -1FR"
  | zeroOrdinal text => "Invalid weekday ordinal in " ++ quote text ++ ": must be non-zero"
  | badWeekday value =>
    "Invalid weekday: " ++ value.shown ++
      "\nUse 0-6 (Monday=0), a code like 'FR', or a dateutil weekday like FR(-1)"
  | noWeekday n => "There is no weekday " ++ showInt n
  | frequencyMissing =>
    "freq is required.\nExample: normalize_options(freq=YEARLY, bymonth=9, bymonthday=1)"
  | badFrequency value =>
    "Invalid freq: " ++ value.shown ++ "\nValid frequencies: " ++ Frequency.names ++ "\n"
  | badInterval value => "Invalid interval: " ++ value.shown ++ ". Must be a positive integer."
  | badCount value => "Invalid count: " ++ value.shown ++ ". Must be a non-negative integer."
  | badRuleCalendar value => "Invalid calendar: " ++ value.shown ++ validCalendars
  | badSkip value =>
    "Invalid skip: " ++ value.shown ++ ". Must be one of omit, forward, backward."
  | badListItem name value hint => "Invalid " ++ name ++ ": " ++ value.shown ++ ". " ++ hint ++ "."
  | badOption name cause => "Invalid " ++ name ++ ": " ++ cause.message
  | malformedPart part => "Malformed RRULE part: " ++ quote part ++ " (expected NAME=VALUE)"
  | unknownPart name => "Unknown RRULE part: " ++ name
  | badPart name value => "Invalid " ++ name ++ ": " ++ quote value
  | frequencyPartMissing =>
    "FREQ is required in RRULE.\nExample: RRULE:FREQ=YEARLY;BYMONTH=9;BYMONTHDAY=1"
  | badPropertyLine line => "Invalid property line: " ++ quote line
  | unsupportedCalendar name calendar =>
    "Unsupported " ++ name ++ " calendar: " ++ quote calendar
  | unsupportedParameter name parameter =>
    "Unsupported " ++ name ++ " parameter: " ++ quote parameter
  | badPropertyValue name value => "Invalid " ++ name ++ " value: " ++ quote value
  | noDateInLine name line => name ++ " line has no date: " ++ quote line
  | unsupportedLine line => "Unsupported line in RRULE text: " ++ quote line
  | noRuleInText =>
    "No RRULE found in text.\nExample: DTSTART:14460901\\nRRULE:FREQ=YEARLY;BYMONTH=9"
  | emptyText => "Empty RRULE text"
  | unsupportedProperty name => "Unsupported property: " ++ name
  | noRuleLine => "No RRULE found in text"

end Error

end HijriRecurrence
