import HijriRecurrence.Recurrence.Query

/-!
# Rules and rule sets from text

A text may hold several rule lines, excluding rules, dates and excluded dates besides the date that
rules start on.  It is read into a single rule when one rule line is all it has, and into a set
otherwise.

Folded lines are joined first when asked for: a line that starts with a space or a tabulator
continues the line before it.
-/

namespace HijriRecurrence.RuleText

open Text

/-- Adds a physical line to the lines read so far, of which the last one is still growing. -/
def unfoldLine (done : List (List Char)) (line : List Char) : List (List Char) :=
  match line, done.getLast? with
  | ' ' :: rest, some last => done.dropLast ++ [last ++ rest]
  | '\t' :: rest, some last => done.dropLast ++ [last ++ rest]
  | line, _ => if (trim line).isEmpty then done else done ++ [trimRight line]

/-- The lines of a text with folded lines joined and empty lines left out. -/
def unfold (text : List Char) : List (List Char) := (lines text).foldl unfoldLine []

/-- The lines of a text with empty lines left out. -/
def plainLines (text : List Char) : List (List Char) :=
  (lines text).filter fun line => !(trim line).isEmpty

/-- What the lines of a text say, sorted by kind; rules and dates are still to be read. -/
structure Properties where
  start : Value := .null
  calendar : Option CalendarName := none
  ruleLines : List (List Char) := []
  exRuleLines : List (List Char) := []
  dateLines : List (List Char) := []
  exDateLines : List (List Char) := []

/-- The property that a line is about, in capitals; a line without a colon is a rule. -/
def propertyName (line : List Char) : List Char :=
  match cutAt ':' line with
  | (_, none) => "RRULE".toList
  | (head, some _) => upper (cutAt ';' head).1

def sortLine (ctx : Context) (p : Properties) (line : List Char) : Calculation Properties :=
  let name := propertyName line
  if name = "DTSTART".toList then do
    let dateLine ← readDateLine ctx line none
    return { p with
      start := match dateLine.dates with
        | first :: _ => .lunar first
        | [] => p.start
      calendar := dateLine.calendar }
  else if name = "RRULE".toList then pure { p with ruleLines := p.ruleLines ++ [line] }
  else if name = "EXRULE".toList then pure { p with exRuleLines := p.exRuleLines ++ [line] }
  else if name = "RDATE".toList then pure { p with dateLines := p.dateLines ++ [line] }
  else if name = "EXDATE".toList then pure { p with exDateLines := p.exDateLines ++ [line] }
  else if "X-".toList.isPrefixOf name then pure p
  else throw (Error.unsupportedProperty (String.ofList name))

def sortLines (ctx : Context) : Properties → List (List Char) → Calculation Properties
  | p, [] => pure p
  | p, line :: rest => do
    let p ← sortLine ctx p (trim line)
    sortLines ctx p rest

/-- How a text is to be read. -/
structure Reading where
  /-- Whether rules and sets keep a memo. -/
  keepsMemo : Bool := false
  /-- The date that rules start on, whatever the text says. -/
  start : Value := .null
  /-- Whether folded lines are joined. -/
  unfolds : Bool := false
  /-- Whether a set is wanted in any case. -/
  wantsSet : Bool := false
  /-- The time zone of every rule. -/
  timeZone : Value := .null

/-- The rule of a line: the start, calendar and time zone of the whole text count over its own. -/
def buildRule (ctx : Context) (how : Reading) (p : Properties) (line : List Char) :
    Calculation Rule := do
  let r ← readRuleLine ctx line p.calendar
  let r := if p.start.isNull then r else r.set .start p.start
  let r := match p.calendar with
    | some name => r.set .calendar (calendarValue name)
    | none => r
  let r := if how.timeZone.truthy then r.set .timeZone how.timeZone else r
  Rule.ofRequest ctx r how.keepsMemo

def addRules (ctx : Context) (how : Reading) (p : Properties) (add : RuleSet → Rule → RuleSet) :
    RuleSet → List (List Char) → Calculation RuleSet
  | s, [] => pure s
  | s, line :: rest => do
    let rule ← buildRule ctx how p line
    addRules ctx how p add (add s rule) rest

def addDates (ctx : Context) (p : Properties) (add : RuleSet → LunarDate → RuleSet) :
    RuleSet → List (List Char) → Calculation RuleSet
  | s, [] => pure s
  | s, line :: rest => do
    let dateLine ← readDateLine ctx line p.calendar
    addDates ctx p add (dateLine.dates.foldl add s) rest

def buildSet (ctx : Context) (how : Reading) (p : Properties) : Calculation RuleSet := do
  let s := RuleSet.empty how.keepsMemo
  let s ← addRules ctx how p RuleSet.addRule s p.ruleLines
  let s ← addRules ctx how p RuleSet.addExRule s p.exRuleLines
  let s ← addDates ctx p RuleSet.addDate s p.dateLines
  let s ← addDates ctx p RuleSet.addExDate s p.exDateLines
  return if how.timeZone.truthy then s.nameZone how.timeZone else s

/-- Whether the lines of a text need a set. -/
def needsSet (how : Reading) (p : Properties) : Bool :=
  how.wantsSet || decide (1 < p.ruleLines.length) || !p.dateLines.isEmpty ||
    !p.exRuleLines.isEmpty || !p.exDateLines.isEmpty

def read (ctx : Context) (text : List Char) (how : Reading) : Calculation Recurrence := do
  if (trim text).isEmpty then throw Error.emptyText
  let p ← sortLines ctx {} (if how.unfolds then unfold text else plainLines text)
  let p := if how.start.isNull then p else { p with start := how.start }
  if needsSet how p then
    let s ← buildSet ctx how p
    return .set s
  else
    match p.ruleLines with
    | [] => throw Error.noRuleLine
    | line :: _ =>
      let rule ← buildRule ctx how p line
      return .rule rule

end HijriRecurrence.RuleText
