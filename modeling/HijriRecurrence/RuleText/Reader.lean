import HijriRecurrence.Lunar.Build
import HijriRecurrence.Rule.Options
import HijriRecurrence.Rule.Weekdays

/-!
# Reading rule text

Rule text is read line by line.  A date line holds a property name, parameters and dates; it may pin
the calendar of its dates.  A rule line holds parts with a name and a value each, in any order, and
the last part of a name counts.  Names and keywords are read in any case.

* `readParts` reads the parts of a rule line into a request;
* `readDateLine` reads a date line;
* `readRequest` reads a whole text of one rule.
-/

namespace HijriRecurrence.RuleText

open Text

/-- What the value of a part has to be, and the option that it gives. -/
inductive PartForm where
  | frequency
  | integer (option : OptionName)
  | integers (option : OptionName)
  | lastDate
  | weekStart
  | weekdays
  | timeZone
  | skip
deriving DecidableEq, Repr

def PartForm.option : PartForm → OptionName
  | frequency => .frequency
  | integer option => option
  | integers option => option
  | lastDate => .last
  | weekStart => .weekStart
  | weekdays => .weekdays
  | timeZone => .timeZone
  | skip => .skip

/-- All parts by their names. -/
def partForms : List (String × PartForm) :=
  [("FREQ", .frequency), ("INTERVAL", .integer .interval), ("COUNT", .integer .count),
   ("UNTIL", .lastDate), ("WKST", .weekStart), ("BYSETPOS", .integers .positions),
   ("BYMONTH", .integers .months), ("BYMONTHDAY", .integers .monthDays),
   ("BYYEARDAY", .integers .yearDays), ("BYWEEKNO", .integers .weekNumbers),
   ("BYHOUR", .integers .hours), ("BYMINUTE", .integers .minutes),
   ("BYSECOND", .integers .seconds), ("BYDAY", .weekdays), ("BYWEEKDAY", .weekdays),
   ("TZID", .timeZone), ("SKIP", .skip)]

/-- The form of the part of a name in capitals. -/
def partForm? (name : List Char) : Option PartForm :=
  (partForms.find? fun entry => entry.1.toList = name).map (·.2)

def readIntegers? (limit : Option DigitLimit) (value : List Char) : Option (List Int) :=
  (splitOn ',' value).mapM (readInt? limit)

def readWeekdayTokens : List (List Char) → Except Error (List Weekday)
  | [] => .ok []
  | token :: rest => do
    let w ← Weekday.ofToken (.str (String.ofList token)) token
    let ws ← readWeekdayTokens rest
    return w :: ws

/-- The value of a part, without blanks around it; a value of the wrong form gives the refusal. -/
def readForm (ctx : Context) (name : Option CalendarName) (refusal : Error) (form : PartForm)
    (value : List Char) : Calculation Value :=
  let orRefuse (read : Option Value) : Calculation Value :=
    match read with
    | some v => pure v
    | none => throw refusal
  match form with
  | .frequency =>
    orRefuse ((Frequency.all.find? fun f => f.name.toList = upper value).map
      fun f => .int f.number)
  | .integer _ => orRefuse ((readInt? ctx.digitLimit value).map .int)
  | .integers _ =>
    orRefuse ((readIntegers? ctx.digitLimit value).map fun ns => .list (ns.map .int))
  | .lastDate => .lunar <$> LunarDate.ofRuleChars ctx value name
  | .weekStart => orRefuse ((Weekday.dayOfCode? (upper value)).map fun day => .int (day.val : Int))
  | .weekdays => do
    let ws ← readWeekdayTokens (splitOn ',' value)
    return .list (ws.map .weekday)
  | .timeZone => pure (.str (String.ofList value))
  | .skip =>
    orRefuse ((Skip.all.find? fun s => s.name.toList = lower value).map fun s => .str s.name)

/-- A request with the option of one part added.  A part without an equals sign, of an unknown name
or with a bad value is refused. -/
def readPart (ctx : Context) (name : Option CalendarName) (r : Request) (text : List Char) :
    Calculation Request :=
  match cutAt '=' text with
  | (_, none) => throw (Error.malformedPart (String.ofList text))
  | (before, some value) =>
    let partName := upper (trim before)
    match partForm? partName with
    | none => throw (Error.unknownPart (String.ofList partName))
    | some form => do
      let refusal := Error.badPart (String.ofList partName) (String.ofList value)
      let v ← tryCatch (readForm ctx name refusal form (trim value)) fun e =>
        if e.isRefusal then throw refusal else throw e
      return r.set form.option v

def readPartsFrom (ctx : Context) (name : Option CalendarName) :
    Request → List (List Char) → Calculation Request
  | r, [] => pure r
  | r, text :: rest => do
    if (trim text).isEmpty then readPartsFrom ctx name r rest
    else
      let r ← readPart ctx name r (trim text)
      readPartsFrom ctx name r rest

/-- The request that the parts of a rule line make; one of them has to give the frequency. -/
def readParts (ctx : Context) (text : List Char) (name : Option CalendarName) :
    Calculation Request := do
  let r ← readPartsFrom ctx name Request.empty (splitOn ';' text)
  if (r.value .frequency).isNull then throw Error.frequencyPartMissing
  return r

/-- The request of a rule line, with or without a property name before a colon. -/
def readRuleLine (ctx : Context) (text : List Char) (name : Option CalendarName) :
    Calculation Request :=
  match cutAt ':' (trim text) with
  | (_, some parts) => readParts ctx parts name
  | (parts, none) => readParts ctx parts name

/-! ### Date lines -/

/-- What a date line says: its dates, the calendar it pins, and the time zone it names. -/
structure DateLine where
  dates : List LunarDate
  calendar : Option CalendarName
  timeZone : Option String

/-- The calendar that a parameter pins; the plain name pins none. -/
def calendarParameter? (text : List Char) : Option (Option Variant) :=
  if text = "HIJRI-UM-AL-QURA".toList then some (some .ummAlQura)
  else if text = "HIJRI-TABULAR".toList then some (some .tabular)
  else if text = "HIJRI".toList then some none
  else none

/-- Calendar and time zone after the parameters of a date line. -/
def readParameters (property : List Char) :
    Option CalendarName → Option String → List (List Char) →
      Except Error (Option CalendarName × Option String)
  | calendar, zone, [] => .ok (calendar, zone)
  | calendar, zone, text :: rest =>
    let parameter := trim text
    let key := upper (cutAt '=' parameter).1
    let argument := trim ((cutAt '=' parameter).2.getD [])
    if key = "CALENDAR".toList then
      match calendarParameter? (upper argument) with
      | none => .error (.unsupportedCalendar (String.ofList property) (String.ofList argument))
      | some none => readParameters property calendar zone rest
      | some (some variant) => readParameters property (some (.known variant)) zone rest
    else if key = "TZID".toList then
      readParameters property calendar (some (String.ofList argument)) rest
    else if key = "VALUE".toList then readParameters property calendar zone rest
    else .error (.unsupportedParameter (String.ofList property) (String.ofList parameter))

def readDates (ctx : Context) (name : Option CalendarName) :
    List (List Char) → Calculation (List LunarDate)
  | [] => pure []
  | text :: rest => do
    if (trim text).isEmpty then readDates ctx name rest
    else
      let d ← LunarDate.ofRuleChars ctx text name
      let ds ← readDates ctx name rest
      return d :: ds

/-- What a date line says.  A calendar named by the caller counts where the line pins none. -/
def readDateLine (ctx : Context) (line : List Char) (name : Option CalendarName) :
    Calculation DateLine :=
  match cutAt ':' line with
  | (_, none) => throw (Error.badPropertyLine (String.ofList line))
  | (head, some text) => do
    let pieces := splitOn ';' head
    let property := upper (trim (pieces.headD []))
    let value := trim text
    let (calendar, timeZone) ← readParameters property name none pieces.tail
    let dates ← tryCatch (readDates ctx calendar (splitOn ',' value)) fun e =>
      if e.kind.isInvalidInput then
        throw (Error.badPropertyValue (String.ofList property) (String.ofList value))
      else throw e
    if dates.isEmpty then
      throw (Error.noDateInLine (String.ofList property) (String.ofList line))
    return { dates, calendar, timeZone }

/-! ### A text of one rule -/

/-- Whether one text occurs in another. -/
def occursIn (piece : List Char) : List Char → Bool
  | [] => piece.isEmpty
  | c :: rest => piece.isPrefixOf (c :: rest) || occursIn piece rest

/-- What has been read of a text: options from its date line, its rule line, and the calendar that
the date line pins. -/
structure Progress where
  request : Request := {}
  ruleLine : Option (List Char) := none
  calendar : Option CalendarName := none

def calendarValue : CalendarName → Value
  | .known v => .str v.token
  | .unknown given => given

/-- Reads one line of a text, which has no blanks around it. -/
def readLine (ctx : Context) (state : Progress) (line : List Char) : Calculation Progress :=
  let capitals := upper line
  if "DTSTART".toList.isPrefixOf capitals then do
    let dateLine ← readDateLine ctx line none
    let request := match dateLine.dates with
      | first :: _ => state.request.set .start (.lunar first)
      | [] => state.request
    let request := match dateLine.calendar with
      | some name => request.set .calendar (calendarValue name)
      | none => request
    let request := match dateLine.timeZone with
      | some zone => if zone.isEmpty then request else request.set .timeZone (.str zone)
      | none => request
    return { state with request, calendar := dateLine.calendar }
  else if "RRULE".toList.isPrefixOf capitals || occursIn "FREQ=".toList capitals then
    pure { state with ruleLine := some line }
  else throw (Error.unsupportedLine (String.ofList line))

def readLines (ctx : Context) : Progress → List (List Char) → Calculation Progress
  | state, [] => pure state
  | state, line :: rest => do
    if (trim line).isEmpty then readLines ctx state rest
    else
      let state ← readLine ctx state (trim line)
      readLines ctx state rest

/-- The request that a text of one rule makes: its rule line counts over its date line. -/
def readRequest (ctx : Context) (text : List Char) : Calculation Request := do
  let state ← readLines ctx {} (lines text)
  match state.ruleLine with
  | none => throw Error.noRuleInText
  | some line =>
    let r ← readRuleLine ctx line state.calendar
    return state.request.merge r.given

end HijriRecurrence.RuleText
