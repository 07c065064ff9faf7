/-!
# Terms of a rule

How often the periods of a rule follow each other (`Frequency`), and what becomes of a day that a
month does not have (`Skip`).
-/

namespace HijriRecurrence

/-- The kind of period that a rule steps through. -/
inductive Frequency where
  | yearly
  | monthly
  | weekly
  | daily
  | hourly
  | minutely
  | secondly
deriving DecidableEq, Repr

namespace Frequency

/-- All frequencies, from the longest period to the shortest. -/
def all : List Frequency := [yearly, monthly, weekly, daily, hourly, minutely, secondly]

/-- The number of a frequency: its position in `all`. -/
def number : Frequency → Nat
  | yearly => 0
  | monthly => 1
  | weekly => 2
  | daily => 3
  | hourly => 4
  | minutely => 5
  | secondly => 6

def name : Frequency → String
  | yearly => "YEARLY"
  | monthly => "MONTHLY"
  | weekly => "WEEKLY"
  | daily => "DAILY"
  | hourly => "HOURLY"
  | minutely => "MINUTELY"
  | secondly => "SECONDLY"

def names : String := ", ".intercalate (all.map name)

def ofName? (name : String) : Option Frequency := all.find? fun f => f.name = name

def ofNumber? (n : Int) : Option Frequency := all.find? fun f => (f.number : Int) = n

theorem ofName?_name (f : Frequency) : ofName? f.name = some f := by
  cases f <;> decide

theorem ofNumber?_number (f : Frequency) : ofNumber? f.number = some f := by
  cases f <;> decide

end Frequency

/-- What becomes of a requested day of the month that a month does not have. -/
inductive Skip where
  /-- The day is left out. -/
  | omit
  /-- The first day of the following month takes its place. -/
  | forward
  /-- The last day of the month takes its place. -/
  | backward
deriving DecidableEq, Repr

namespace Skip

/-- All policies, in the order in which messages list them. -/
def all : List Skip := [.omit, .forward, .backward]

def name : Skip → String
  | .omit => "omit"
  | .forward => "forward"
  | .backward => "backward"

def ruleName : Skip → String
  | .omit => "OMIT"
  | .forward => "FORWARD"
  | .backward => "BACKWARD"

def ofName? (name : String) : Option Skip := all.find? fun s => s.name = name

def shown (s : Skip) : String := "<Skip." ++ s.ruleName ++ ": '" ++ s.name ++ "'>"

theorem ofName?_name (s : Skip) : ofName? s.name = some s := by
  cases s <;> decide

end Skip

end HijriRecurrence
