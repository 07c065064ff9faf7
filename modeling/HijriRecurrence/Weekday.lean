import HijriRecurrence.Lunar.Names

/-!
# Weekdays with an ordinal

A weekday of a rule is the number of a day of the week, Monday being 0, with an optional ordinal:
the first Friday of a period, or the last one.  Callers may make a weekday of any number; one that
is not from 0 to 6 falls on no date.

`token` is the form that rule text uses, `shown` the form that messages use, and `describe` the form
of a description in words.
-/

namespace HijriRecurrence

open Text

/-- The number of a weekday with the ordinal it may carry. -/
structure Weekday where
  number : Int
  ordinal : Option Int := none
deriving DecidableEq, Repr

namespace Weekday

def code (w : Weekday) : String := weekdayCode w.number

/-- The ordinal, where there is one and it is not zero. -/
def ordinal? (w : Weekday) : Option Int := w.ordinal.filter (· != 0)

def isNth (w : Weekday) : Bool := w.ordinal?.isSome

/-- Rule text of a weekday that has a code: the code after the ordinal, such as FR, 1FR or -1FR. -/
def tokenChars (w : Weekday) : List Char :=
  match w.ordinal? with
  | none => w.code.toList
  | some n => integer n ++ w.code.toList

/-- A weekday in a message: its code before its signed ordinal, such as FR or FR(+1). -/
def shown (w : Weekday) : String :=
  match w.ordinal? with
  | none => w.code
  | some n => w.code ++ "(" ++ (if 0 ≤ n then "+" else "") ++ showInt n ++ ")"

def words (w : Weekday) (locale : Locale) : String :=
  match w.ordinal?, locale with
  | none, _ => locale.weekdayName w.number
  | some n, .arabic => locale.weekdayName w.number ++ " " ++ locale.ordinalText n
  | some n, .english => "the " ++ locale.ordinalText n ++ " " ++ locale.weekdayName w.number

end Weekday

end HijriRecurrence
