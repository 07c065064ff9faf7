import HijriRecurrence.Occurrence.Merge
import HijriRecurrence.Occurrence.Query
import HijriRecurrence.Recurrence.Memo
import HijriRecurrence.Rule.Normalize
import HijriRecurrence.Rule.Occurrences
import HijriRecurrence.RuleText.Description
import HijriRecurrence.RuleText.Printer
import HijriRecurrence.RuleText.Reader

/-!
# Rules and rule sets

A `Rule` recurs by its options.  A `RuleSet` recurs on the occurrences of its rules and on its own
dates, except on those of its excluding rules and dates.  Either may keep a memo of its queries; a
set forgets its memo whenever something is added to it.

Callers may add other sources of dates in the place of rules: another set, or a sequence of dates.
Whether a `Source` has dates is found out only when the set is walked.
-/

namespace HijriRecurrence

open Text

/-- A recurrence rule, with its memo if it keeps one. -/
structure Rule where
  options : RuleOptions
  memo : Option Memo := some {}

namespace Rule

/-- An empty memo, if one is to be kept. -/
def newMemo (keepsMemo : Bool) : Option Memo := if keepsMemo then some {} else none

def ofRequest (ctx : Context) (r : Request) (keepsMemo : Bool) : Calculation Rule := do
  let options ← RuleOptions.ofRequest ctx r
  return { options, memo := newMemo keepsMemo }

def ofNamed (ctx : Context) (named : List (String × Value)) (keepsMemo : Bool) :
    Calculation Rule := do
  let options ← RuleOptions.ofNamed ctx named
  return { options, memo := newMemo keepsMemo }

def ofText (ctx : Context) (text : String) (keepsMemo : Bool) : Calculation Rule := do
  let r ← RuleText.readRequest ctx text.toList
  ofRequest ctx r keepsMemo

def replace (ctx : Context) (rule : Rule) (named : List (String × Value)) : Calculation Rule := do
  let changes ← RuleOptions.requestOfNamed named
  ofRequest ctx (rule.options.toRequest.merge changes) rule.memo.isSome

def text (rule : Rule) : Except Error String := rule.options.text

def shown (rule : Rule) : String :=
  "HijriRRule.from_string(" ++ quote (String.ofList rule.options.textChars) ++ ")"

end Rule

/-- What a set draws dates from: a rule, or what a caller added in the place of one. -/
inductive Source where
  | rule (rule : Rule)
  | other (value : Value)

namespace Source

/-- The walk along the items of what a caller added in the place of a rule. -/
def items (ctx : Context) (value : Value) : Except Error (Occurrences Value) :=
  match value with
  | .object number _ _ _ =>
    match ctx.occurrencesOf number with
    | some walk => .ok walk
    | none => .error .notDates
  | _ =>
    match value.parts? with
    | some items => .ok (.ofList items)
    | none => .error .notDates

/-- The date that an item is; another item is none. -/
def dateOf : Value → Calculation LunarDate
  | .lunar d => pure d
  | _ => throw Error.notDates

/-- The walk along the dates of a source; an item that is no date ends it with a failure. -/
def walk (ctx : Context) : Source → Except Error (Occurrences LunarDate)
  | rule r => .ok (r.options.occurrences ctx)
  | other value => (items ctx value).map (·.mapM dateOf)

def text (ctx : Context) : Source → Except Error String
  | rule r => r.text
  | other (.object number isKey shown plain) =>
    (ctx.textOf number).getD (.ok (Value.object number isKey shown plain).plain)
  | other value => .ok value.plain

/-- The parts of a source as an excluding rule; only rules have parts. -/
def partsText : Source → Except Error String
  | rule r => r.options.written r.options.partsText
  | other _ => .error .lacksPart

/-- The walks of some sources, if all of them have one. -/
def walks (ctx : Context) (sources : List Source) : Except Error (List (Occurrences LunarDate)) :=
  sources.mapM (walk ctx)

/-- Rules always have walks. -/
theorem walks_rules (ctx : Context) (rules : List Rule) :
    walks ctx (rules.map rule) = .ok (rules.map fun r => r.options.occurrences ctx) := by
  induction rules with
  | nil => rfl
  | cons r rest ih =>
    simp only [walks, List.map_cons, List.mapM_cons] at ih ⊢
    rw [ih]
    rfl

end Source

/-- A set of rules and dates, less excluded rules and dates. -/
structure RuleSet where
  rules : List Source := []
  dates : List LunarDate := []
  exRules : List Source := []
  exDates : List LunarDate := []
  timeZone : Value := .null
  memo : Option Memo := some {}

namespace RuleSet

def empty (keepsMemo : Bool) : RuleSet := { memo := Rule.newMemo keepsMemo }

def forget (s : RuleSet) : RuleSet := { s with memo := s.memo.map fun _ => {} }

def addSource (s : RuleSet) (source : Source) : RuleSet :=
  { s with rules := s.rules ++ [source] }.forget

def addExSource (s : RuleSet) (source : Source) : RuleSet :=
  { s with exRules := s.exRules ++ [source] }.forget

def addRule (s : RuleSet) (rule : Rule) : RuleSet := s.addSource (.rule rule)

def addExRule (s : RuleSet) (rule : Rule) : RuleSet := s.addExSource (.rule rule)

def addDate (s : RuleSet) (d : LunarDate) : RuleSet := { s with dates := s.dates ++ [d] }.forget

def addExDate (s : RuleSet) (d : LunarDate) : RuleSet :=
  { s with exDates := s.exDates ++ [d] }.forget

/-- The set with its time zone changed, when one is given. -/
def nameZone (s : RuleSet) (zone : Value) : RuleSet :=
  if zone.isNull then s else { s with timeZone := zone }

/-- A set of its own with the same rules and dates, and nothing in its memo. -/
def clone (s : RuleSet) : RuleSet := s.forget

/-- The text of a set: a rule's text for each rule, and a line for everything else. -/
def text (ctx : Context) (s : RuleSet) : Except Error String := do
  let dateLine (name : String) (d : LunarDate) : String :=
    name ++ ";CALENDAR=HIJRI:" ++ d.ruleText
  let rules ← s.rules.mapM (·.text ctx)
  let exRules ← s.exRules.mapM (·.partsText)
  return "\n".intercalate
    (rules ++ s.dates.map (dateLine "RDATE") ++ exRules.map ("EXRULE:" ++ ·) ++
      s.exDates.map (dateLine "EXDATE"))

def shown (s : RuleSet) : String :=
  let count {α : Type} (items : List α) : String := showInt items.length
  "HijriRRuleSet(rrules=" ++ count s.rules ++ ", rdates=" ++ count s.dates ++ ", exrules=" ++
    count s.exRules ++ ", exdates=" ++ count s.exDates ++ ")"

/-- The walks of sources and dates, sources first. -/
def walks (ctx : Context) (sources : List Source) (dates : List LunarDate) :
    Except Error (List (Occurrences LunarDate)) :=
  (Source.walks ctx sources).map (· ++ [Occurrences.ofList (LunarDate.sortDates dates)])

def occurrences (ctx : Context) (s : RuleSet) : Occurrences LunarDate :=
  match walks ctx s.rules s.dates, walks ctx s.exRules s.exDates with
  | .ok included, .ok excluded => .mergeExcept included excluded
  | .error e, _ => .failed e
  | .ok _, .error e => .failed e

end RuleSet

end HijriRecurrence
