import HijriRecurrence.Recurrence.Basic

/-!
# Queries on rules and rule sets

A `Recurrence` is a rule or a set; both answer the same queries.  A query whose caller watches it is
always worked out anew; any other is answered from the memo where that has the answer, and
otherwise worked out and kept.  A query that fails leaves the memo as it was.  An answer that a
caller put into the memo is given back, whatever it is.

Dates of a query may have any shape.  A rule reads them in its own calendar, a set leaves lunar
dates in theirs and reads others in the default calendar.

Every query gives the recurrence in its state afterwards.  What was given for whether the ends count
is part of what a memo knows a query by, so it is handed on as it is.
-/

namespace HijriRecurrence

/-- A rule or a set of rules. -/
inductive Recurrence where
  | rule (rule : Rule)
  | set (set : RuleSet)

namespace Recurrence

/-- The occurrences of a recurrence, in increasing order. -/
def occurrences (ctx : Context) : Recurrence → Occurrences LunarDate
  | rule r => r.options.occurrences ctx
  | set s => s.occurrences ctx

def text (ctx : Context) : Recurrence → Except Error String
  | rule r => r.text
  | set s => s.text ctx

def shown : Recurrence → String
  | rule r => r.shown
  | set s => s.shown

def sameRule : Recurrence → Recurrence → Bool
  | rule r, rule s => r.options.sameAs s.options
  | _, _ => false

def memo : Recurrence → Option Memo
  | rule r => r.memo
  | set s => s.memo

def withMemo (memo : Option Memo) : Recurrence → Recurrence
  | rule r => rule { r with memo }
  | set s => set { s with memo }

/-- The date of a query. -/
def readDate (ctx : Context) (r : Recurrence) (value : Value) : Calculation LunarDate :=
  match r with
  | rule r => LunarDate.ofValue ctx value (some (.known r.options.variant))
  | set _ => LunarDate.ofValue ctx value none

/-- All occurrences, up to a number of them. -/
def all (ctx : Context) (r : Recurrence) (limit : Option Int)
    (watcher : Option (Watcher LunarDate)) :
    Calculation (Answer (Scan LunarDate) × Recurrence) := do
  match r.memo, limit, watcher with
  | some memo, none, none =>
    match memo.all with
    | some answer => return (answer.map fun kept => { kept }, r)
    | none =>
      let scan ← (r.occurrences ctx).collect
      match scan.failure with
      | some _ => return (.found scan, r)
      | none => return (.found scan, r.withMemo (some { memo with all := some (.found scan.kept) }))
  | _, _, _ =>
    let scan ← (r.occurrences ctx).collect limit watcher
    return (.found scan, r)

/-- Occurrences between two dates that have been read. -/
def betweenDates (ctx : Context) (r : Recurrence) (after before : LunarDate) (inclusive : Value)
    (watcher : Option (Watcher LunarDate)) :
    Calculation (Answer (Scan LunarDate) × Recurrence) := do
  match r.memo, watcher with
  | some memo, none =>
    match ← memo.getBetween after.text before.text inclusive with
    | some (.found kept) => return (.found { kept }, r)
    | some (.given value) =>
      let items ← ctx.listed value
      return (.given (.list items), r)
    | none =>
      let scan ← (r.occurrences ctx).between after before inclusive.truthy
      match scan.failure with
      | some _ => return (.found scan, r)
      | none =>
        let memo ← memo.setBetween after.text before.text inclusive (.found scan.kept)
        return (.found scan, r.withMemo (some memo))
  | _, _ =>
    let scan ← (r.occurrences ctx).between after before inclusive.truthy watcher
    return (.found scan, r)

def between (ctx : Context) (r : Recurrence) (after before inclusive : Value)
    (watcher : Option (Watcher LunarDate)) :
    Calculation (Answer (Scan LunarDate) × Recurrence) := do
  let start ← r.readDate ctx after
  let stop ← r.readDate ctx before
  r.betweenDates ctx start stop inclusive watcher

def after (ctx : Context) (r : Recurrence) (value inclusive : Value) :
    Calculation (Answer (Option LunarDate) × Recurrence) := do
  let date ← r.readDate ctx value
  match r.memo with
  | none =>
    let date ← (r.occurrences ctx).firstAfter date inclusive.truthy
    return (.found date, r)
  | some memo =>
    match ← memo.getAfter date.text inclusive with
    | some answer => return (answer, r)
    | none =>
      let found ← (r.occurrences ctx).firstAfter date inclusive.truthy
      let memo ← memo.setAfter date.text inclusive (.found found)
      return (.found found, r.withMemo (some memo))

def before (ctx : Context) (r : Recurrence) (value inclusive : Value) :
    Calculation (Answer (Option LunarDate) × Recurrence) := do
  let date ← r.readDate ctx value
  match r.memo with
  | none =>
    let date ← (r.occurrences ctx).lastBefore date inclusive.truthy
    return (.found date, r)
  | some memo =>
    match ← memo.getBefore date.text inclusive with
    | some answer => return (answer, r)
    | none =>
      let found ← (r.occurrences ctx).lastBefore date inclusive.truthy
      let memo ← memo.setBefore date.text inclusive (.found found)
      return (.found found, r.withMemo (some memo))

/-! ### Civil dates -/

def civilDates (ctx : Context) : List LunarDate → Calculation (List CivilDate)
  | [] => pure []
  | d :: rest => do
    let g ← d.toCivil ctx
    let gs ← civilDates ctx rest
    return g :: gs

def civilResult (ctx : Context) (scan : Scan LunarDate) : Calculation (List CivilDate) := do
  let dates ← scan.result
  civilDates ctx dates

/-- The civil dates of values that are lunar dates; anything else has none. -/
def civilItems (ctx : Context) : List Value → Calculation (List CivilDate)
  | [] => pure []
  | .lunar d :: rest => do
    let g ← d.toCivil ctx
    let gs ← civilItems ctx rest
    return g :: gs
  | _ :: _ => throw Error.lacksPart

/-- The civil dates of an answer to a query for some dates. -/
def civilAnswers (ctx : Context) : Answer (Scan LunarDate) → Calculation (List CivilDate)
  | .found scan => civilResult ctx scan
  | .given value => civilItems ctx value.items

/-- The civil date of an answer to a query for one date, if there is one. -/
def civilOption (ctx : Context) : Answer (Option LunarDate) → Calculation (Option CivilDate)
  | .found none => pure none
  | .found (some d) => some <$> d.toCivil ctx
  | .given _ => throw Error.lacksPart

/-- All occurrences, up to a number of them, as civil dates.  What the query keeps is kept also when
one of its dates has no civil date. -/
def allCivil (ctx : Context) (r : Recurrence) (limit : Option Int)
    (watcher : Option (Watcher LunarDate)) :
    Calculation ((Except Error (List CivilDate) × Answer (Scan LunarDate)) × Recurrence) := do
  let (answer, r) ← r.all ctx limit watcher
  let dates ← (civilAnswers ctx answer).attempt
  return ((dates, answer), r)

def betweenCivil (ctx : Context) (r : Recurrence) (after before inclusive : Value) :
    Calculation (Except Error (List CivilDate) × Recurrence) := do
  let (answer, r) ← r.between ctx after before inclusive none
  let dates ← (civilAnswers ctx answer).attempt
  return (dates, r)

def afterCivil (ctx : Context) (r : Recurrence) (value inclusive : Value) :
    Calculation (Except Error (Option CivilDate) × Recurrence) := do
  let (found, r) ← r.after ctx value inclusive
  let date ← (civilOption ctx found).attempt
  return (date, r)

def beforeCivil (ctx : Context) (r : Recurrence) (value inclusive : Value) :
    Calculation (Except Error (Option CivilDate) × Recurrence) := do
  let (found, r) ← r.before ctx value inclusive
  let date ← (civilOption ctx found).attempt
  return (date, r)

def civilOccurrences (ctx : Context) (r : Recurrence) : Occurrences CivilDate :=
  (r.occurrences ctx).mapM fun d => d.toCivil ctx

/-! ### Counting -/

/-- Number of occurrences of a rule: its count where it has one, and otherwise the number that a
walk finds. -/
def count (ctx : Context) (options : RuleOptions) (r : Recurrence) :
    Calculation (Int × Recurrence) := do
  match options.count with
  | some n => return (n, r)
  | none =>
    let (answer, r) ← r.all ctx none none
    match answer with
    | .found scan =>
      let dates ← scan.result
      return (dates.length, r)
    | .given value => return (value.items.length, r)

end Recurrence

end HijriRecurrence
