import HijriRecurrence.Lunar.Arithmetic
import HijriRecurrence.Rule.Candidate
import HijriRecurrence.Rule.Options

/-!
# Candidates of a period

A rule walks from period to period: years, months, weeks or days.  The `k`th period is found from
the first date of the rule by one shift, so that a day cut short in one month has no effect on the
next (`cursor`).  In each period the rule's parts propose days (`candidates`), of which the
positions, if any are given, pick some (`periodDays`).
-/

namespace HijriRecurrence

/-- The day of a month that a request for a day stands for, when the month may be too short: the day
itself, or what the policy says. -/
def resolveDay (cal : Calendar) (year month : Int) (day : Quantity) (skip : Skip) :
    Calculation (Option Candidate) := do
  if !(← (Quantity.whole 1).atMost day) then return none
  let length ← cal.monthLength year month
  if ← day.atMost length then return some ⟨year, month, day⟩
  match skip with
  | .backward => return some ⟨year, month, length⟩
  | .forward =>
    return some (.ofDay (if month = 12 then ⟨year + 1, 1, 1⟩ else ⟨year, month + 1, 1⟩))
  | .omit => return none

/-- The candidates at some positions of a list, counted from 1 at the front and from -1 at the back,
in increasing order. -/
def pickPositions (candidates : List Candidate) (positions : List Int) : List Candidate :=
  Candidate.sorted (positions.filterMap fun position =>
    let index : Int := if 0 < position then position - 1 else candidates.length + position
    if 0 ≤ index then candidates[index.toNat]? else none)

namespace RuleOptions

def weekdayNumbers (o : RuleOptions) : List Int := o.weekdays.map (·.number)

def allowsMonth (o : RuleOptions) (month : Int) : Bool :=
  o.months.isEmpty || o.months.contains month

/-- The days that a rule proposes in one month, by the first of its parts that applies; without any,
a usual day, cut to the length of the month. -/
def monthCandidates (ctx : Context) (o : RuleOptions) (cal : Calendar)
    (year month usualDay : Int) : Calculation (List Candidate) := do
  if !o.monthDays.isEmpty then
    Calculation.filterMap (fun day => resolveDay cal year month (.whole day) o.skip) o.monthDays
  else
    let length ← cal.monthLength year month
    if !o.monthDaysFromEnd.isEmpty then
      Calculation.filterMap (fun offset => do
        let day ← length.fromEnd offset
        return if ← (Quantity.whole 1).atMost day then some ⟨year, month, day⟩ else none)
        o.monthDaysFromEnd
    else if !o.nthWeekdays.isEmpty then
      let found ← Calculation.filterMap (fun w =>
        LunarDate.nthWeekdayOfMonth ctx year month w.number (w.ordinal?.getD 0)
          (some (.known o.variant))) o.nthWeekdays
      return found.map fun d => .ofDay d.toLunarDay
    else if !o.weekdays.isEmpty then
      let first ← cal.weekday ⟨year, month, 1⟩
      let count ← length.count
      let days := (List.range count.toNat).map fun (i : Nat) => (i : Int) + 1
      return (days.filter fun day => o.weekdayNumbers.contains ((first + day - 1) % 7)).map
        fun day => .ofDay ⟨year, month, day⟩
    else
      let fits ← (Quantity.whole usualDay).atMost length
      return [⟨year, month, if fits then .whole usualDay else length⟩]

/-- The day at a position of a year, counted from 1 at its start and from -1 at its end. -/
def yearDay (cal : Calendar) (year offset : Int) : Calculation (Option Candidate) := do
  let length ← cal.yearLength year
  let position ← if 0 < offset then pure (Quantity.whole offset) else length.fromEnd offset
  if !(← position.isWithin length) then return none
  let found ← cal.locate year allMonths position
  return found.map fun (month, day) => ⟨year, month, day⟩

def monthsCandidates (ctx : Context) (o : RuleOptions) (cal : Calendar) (year usualDay : Int) :
    List Int → Calculation (List Candidate)
  | [] => pure []
  | month :: rest => do
    let days ← o.monthCandidates ctx cal year month usualDay
    let others ← o.monthsCandidates ctx cal year usualDay rest
    return days ++ others

/-- The candidates of a list that fall on the rule's weekdays. -/
def onWeekdays (o : RuleOptions) (cal : Calendar) (candidates : List Candidate) :
    Calculation (List Candidate) :=
  Calculation.filterMap (fun c => do
    let weekday ← c.weekday cal
    return if o.weekdayNumbers.contains weekday then some c else none) candidates

def yearlyCandidates (ctx : Context) (o : RuleOptions) (cal : Calendar) (cursor : LunarDate) :
    Calculation (List Candidate) := do
  if !o.months.isEmpty then
    o.monthsCandidates ctx cal cursor.year cursor.day o.months
  else
    let days ←
      if !o.monthDays.isEmpty || !o.monthDaysFromEnd.isEmpty then
        o.monthCandidates ctx cal cursor.year cursor.month cursor.day
      else if !o.yearDays.isEmpty then
        Calculation.filterMap (yearDay cal cursor.year) o.yearDays
      else pure [.ofDay cursor.toLunarDay]
    if o.weekdays.isEmpty then return days else o.onWeekdays cal days

def monthlyCandidates (ctx : Context) (o : RuleOptions) (cal : Calendar) (cursor : LunarDate) :
    Calculation (List Candidate) :=
  if o.allowsMonth cursor.month then
    o.monthCandidates ctx cal cursor.year cursor.month cursor.day
  else pure []

/-- The dates of the week from a cursor on that fall on the rule's weekdays. -/
def weekDates (ctx : Context) (o : RuleOptions) (cursor : LunarDate) (weekday : Int) :
    Calculation (List LunarDate) :=
  Calculation.filterMap (fun (i : Int) =>
    if o.weekdayNumbers.contains ((weekday + i) % 7) then
      some <$> cursor.addDays ctx (.whole i)
    else pure none) [0, 1, 2, 3, 4, 5, 6]

/-- The days that a weekly rule proposes in the seven days from a cursor on. -/
def weeklyCandidates (ctx : Context) (o : RuleOptions) (cursor : LunarDate) :
    Calculation (List Candidate) := do
  let dates ←
    if o.weekdays.isEmpty then pure [cursor]
    else
      let weekday ← cursor.weekday ctx
      o.weekDates ctx cursor weekday
  return (dates.filter fun d => o.allowsMonth d.month).map fun d => .ofDay d.toLunarDay

/-- Whether a day of a month of some length is among the rule's month days. -/
def allowsMonthDay (o : RuleOptions) (length : Quantity) (day : Int) : Except Error Bool := do
  let fromEnd ← o.monthDaysFromEnd.mapM fun offset => length.fromEnd offset
  return o.monthDays.contains day || fromEnd.any (·.equals day)

/-- The day of a cursor, if a daily rule allows it. -/
def dailyCandidates (ctx : Context) (o : RuleOptions) (cursor : LunarDate) :
    Calculation (List Candidate) := do
  if !o.allowsMonth cursor.month then return []
  if !o.monthDays.isEmpty || !o.monthDaysFromEnd.isEmpty then
    let length ← cursor.daysInMonth ctx
    if !(← o.allowsMonthDay length cursor.day) then return []
  if !o.weekdays.isEmpty then
    let weekday ← cursor.weekday ctx
    if !o.weekdayNumbers.contains weekday then return []
  return [.ofDay cursor.toLunarDay]

/-- The days that a rule proposes in the period of a cursor, in increasing order. -/
def candidates (ctx : Context) (o : RuleOptions) (cal : Calendar) (cursor : LunarDate) :
    Calculation (List Candidate) := do
  let days ← match o.frequency with
    | .yearly => o.yearlyCandidates ctx cal cursor
    | .monthly => o.monthlyCandidates ctx cal cursor
    | .weekly => o.weeklyCandidates ctx cursor
    | .daily => o.dailyCandidates ctx cursor
    | .hourly | .minutely | .secondly => pure [.ofDay cursor.toLunarDay]
  return Candidate.sorted days

/-- The days of a period: the candidates, or those at the rule's positions among them. -/
def periodDays (ctx : Context) (o : RuleOptions) (cal : Calendar) (cursor : LunarDate) :
    Calculation (List Candidate) := do
  let days ← o.candidates ctx cal cursor
  return if o.positions.isEmpty then days else pickPositions days o.positions

/-- The start of a period, by its number. -/
def cursor (ctx : Context) (o : RuleOptions) (period : Int) : Calculation LunarDate :=
  let step := period * o.interval
  match o.frequency with
  | .yearly => do return (← o.start.addYears ctx step).getD o.start
  | .monthly => do return (← o.start.addMonths ctx step).getD o.start
  | .weekly => o.start.addDays ctx (.whole (7 * step))
  | .daily => o.start.addDays ctx (.whole step)
  | .hourly | .minutely | .secondly => o.start.addDays ctx (.whole period)

/-- The first day of the period of a cursor. -/
def periodStart (o : RuleOptions) (cursor : LunarDate) : LunarDay :=
  match o.frequency with
  | .yearly => ⟨cursor.year, 1, 1⟩
  | .monthly => ⟨cursor.year, cursor.month, 1⟩
  | _ => cursor.toLunarDay

/-- Greatest number of periods that are walked: a hundred for every occurrence asked for and a
thousand at least; a rule without a count has a fixed number. -/
def periodLimit (o : RuleOptions) : Int :=
  match o.count with
  | none => 100000
  | some count => max (count * 100) 1000

end RuleOptions

end HijriRecurrence
