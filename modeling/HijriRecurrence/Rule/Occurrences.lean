import HijriRecurrence.Occurrence.Stream
import HijriRecurrence.Rule.Candidates

/-!
# Occurrences of a rule

A rule is walked period by period.  Of the days of a period those are taken that are neither before
the first date of the rule nor up to the last day taken before, in increasing order, until the last
date of the rule, its count, or the bound on the number of periods ends the walk.

Each occurrence is built as a date only when the walk reaches it, and a period is looked at only
when the occurrences of the periods before it are used up.
-/

namespace HijriRecurrence.RuleOptions

/-- Whether a candidate is after the last date of the rule. -/
def isPast (o : RuleOptions) (c : Candidate) : Bool :=
  match o.last with
  | some last => (Candidate.ofDay last.toLunarDay).before c
  | none => false

/-- Whether a candidate may still be taken: not before the first date, and after the one taken
before. -/
def isFresh (o : RuleOptions) (taken : Option Candidate) (c : Candidate) : Bool :=
  !c.before (.ofDay o.start.toLunarDay) &&
    match taken with
    | some previous => previous.before c
    | none => true

/-- The days of a period that may still be taken. -/
def freshDays (o : RuleOptions) (taken : Option Candidate) (days : List Candidate) :
    List Candidate :=
  days.filter (o.isFresh taken)

/-- The days taken from a period, when some number of occurrences came before it. -/
def chosenDays (o : RuleOptions) (taken : Option Candidate) (emitted : Nat)
    (days : List Candidate) : List Candidate :=
  let within := (o.freshDays taken days).takeWhile fun c => !o.isPast c
  match o.count with
  | none => within
  | some count => within.take (count - emitted).toNat

/-- Whether the walk ends in a period: its count is reached, or a day is after the last date. -/
def endsIn (o : RuleOptions) (taken : Option Candidate) (emitted : Nat) (days : List Candidate) :
    Bool :=
  (o.freshDays taken days).any o.isPast ||
    match o.count with
    | none => false
    | some count => decide (count ≤ emitted + (o.chosenDays taken emitted days).length)

/-- The occurrence on a day: the day with the rule's time of day, in its calendar. -/
def dateOn (ctx : Context) (o : RuleOptions) (c : Candidate) : Calculation LunarDate := do
  let day ← c.toDay
  LunarDate.build ctx
    { day with
      hour := o.start.hour, minute := o.start.minute, second := o.start.second,
      variant := o.variant }

/-- The walk from a period on, over a bounded number of periods.  `taken` is the last day taken and
`emitted` the number of occurrences so far. -/
def walk (ctx : Context) (o : RuleOptions) (cal : Calendar) :
    Nat → Int → Option Candidate → Nat → Occurrences LunarDate
  | 0, _, _, _ => .done
  | periods + 1, period, taken, emitted =>
    .after (o.cursor ctx period) fun start =>
      if o.isPast (.ofDay (o.periodStart start)) then .done
      else
        .after (o.periodDays ctx cal start) fun days =>
          match o.chosenDays taken emitted days with
          | [] =>
            if o.endsIn taken emitted days then .done
            else walk ctx o cal periods (period + 1) taken emitted
          | first :: rest =>
            .yieldAll (o.dateOn ctx) (first :: rest) fun _ =>
              if o.endsIn taken emitted days then .done
              else
                walk ctx o cal periods (period + 1) ((first :: rest).getLast?)
                  (emitted + (first :: rest).length)

def occurrences (ctx : Context) (o : RuleOptions) : Occurrences LunarDate :=
  if o.count = some 0 then .done
  else .after (ctx.serve o.variant) fun cal => o.walk ctx cal o.periodLimit.toNat 0 none 0

end HijriRecurrence.RuleOptions
