import HijriRecurrence.Lunar.Day

/-!
# Lunar dates

A lunar date is a lunar day with a time of day and the calendar variant it belongs to.  Dates are
compared by their day alone (`toLunarDay`): neither the time nor the variant counts.

`ruleText` is the compact form of rule text: eight digits, then the time when there is one.
-/

namespace HijriRecurrence

open Text

/-- A variant of the Hijri calendar. -/
inductive Variant where
  /-- Month lengths observed in Mecca, known from tables. -/
  | ummAlQura
  /-- Month lengths by the thirty-year arithmetic cycle. -/
  | tabular
deriving DecidableEq, Repr

namespace Variant

def token : Variant → String
  | ummAlQura => "islamic-umalqura"
  | tabular => "islamic-tbla"

/-- All variants, in the order in which messages list them. -/
def all : List Variant := [ummAlQura, tabular]

def ofToken? (token : String) : Option Variant := all.find? fun v => v.token = token

def tokens : String := ", ".intercalate (all.map token)

theorem ofToken?_token (v : Variant) : ofToken? v.token = some v := by
  cases v <;> decide

end Variant

/-- A lunar day with a time of day and a calendar variant. -/
structure LunarDate extends LunarDay where
  hour : Int := 0
  minute : Int := 0
  second : Int := 0
  variant : Variant
deriving DecidableEq, Repr

namespace LunarDate

def hasTime (d : LunarDate) : Bool := d.hour != 0 || d.minute != 0 || d.second != 0

def secondOfDay (d : LunarDate) : Int := d.hour * 3600 + d.minute * 60 + d.second

/-- The day as text, such as 1446-09-01: the key of a date in look-ups. -/
def text (d : LunarDate) : String := d.toLunarDay.text

def isoText (d : LunarDate) : String :=
  d.text ++ "T" ++ showPadded 2 d.hour ++ ":" ++ showPadded 2 d.minute ++ ":" ++
    showPadded 2 d.second

/-- The compact form of rule text; the time follows when asked for or when it is not midnight. -/
def ruleChars (d : LunarDate) (withTime : Bool := false) : List Char :=
  padded 4 d.year ++ padded 2 d.month ++ padded 2 d.day ++
    if withTime || d.hasTime then
      'T' :: padded 2 d.hour ++ padded 2 d.minute ++ padded 2 d.second
    else []

/-- The compact form of rule text as a string. -/
def ruleText (d : LunarDate) (withTime : Bool := false) : String :=
  String.ofList (d.ruleChars withTime)

def shown (d : LunarDate) : String :=
  "LunarDate(year=" ++ showInt d.year ++ ", month=" ++ showInt d.month ++ ", day=" ++
    showInt d.day ++ ", hour=" ++ showInt d.hour ++ ", minute=" ++ showInt d.minute ++
    ", second=" ++ showInt d.second ++ ", calendar='" ++ d.variant.token ++ "')"

/-- Dates by increasing day; of equal days the one that came first stays first. -/
def sortDates (dates : List LunarDate) : List LunarDate :=
  dates.mergeSort fun a b => decide (a.toLunarDay ≤ b.toLunarDay)

end LunarDate

end HijriRecurrence
