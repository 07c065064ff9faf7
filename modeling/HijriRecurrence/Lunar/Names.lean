import HijriRecurrence.Text.Integer

/-!
# Names in English and Arabic

The names of the twelve months and of the seven weekdays, the two-letter weekday codes, and the
words for small ordinals, in the two languages that descriptions are written in.

Weekdays are looked up by number, Monday being 0.  Numbers below 0 count back from Sunday, a week at
most; a number beyond that has neither name nor code (`hasWeekdayName`).
-/

namespace HijriRecurrence

open Text

/-- A language that names and descriptions are written in. -/
inductive Locale where
  | english
  | arabic
deriving DecidableEq, Repr

namespace Locale

def code : Locale → String
  | english => "en"
  | arabic => "ar"

def ofCode? (code : String) : Option Locale :=
  if code = "en" then some english else if code = "ar" then some arabic else none

/-- Names of the months, Muharram first. -/
def monthNames : Locale → List String
  | english =>
    ["Muharram", "Safar", "Rabi' al-Awwal", "Rabi' al-Thani", "Jumada al-Awwal",
     "Jumada al-Thani", "Rajab", "Sha'ban", "Ramadan", "Shawwal", "Dhu al-Qa'dah",
     "Dhu al-Hijjah"]
  | arabic =>
    ["مُحَرَّم", "صَفَر", "رَبِيع الأَوَّل", "رَبِيع الثَّانِي", "جُمَادَى الأُولَى",
     "جُمَادَى الآخِرَة", "رَجَب", "شَعْبَان", "رَمَضَان", "شَوَّال", "ذُو القَعْدَة",
     "ذُو الحِجَّة"]

/-- Name of a month, numbered from 1. -/
def monthName (locale : Locale) (month : Int) : String :=
  locale.monthNames.getD (month - 1).toNat ""

def weekdayNames : Locale → List String
  | english =>
    ["Monday", "Tuesday", "Wednesday", "Thursday", "Friday", "Saturday", "Sunday"]
  | arabic =>
    ["الإثنين", "الثلاثاء", "الأربعاء", "الخميس", "الجمعة", "السبت", "الأحد"]

/-- Name of a weekday that has one. -/
def weekdayName (locale : Locale) (weekday : Int) : String :=
  locale.weekdayNames.getD (weekday % 7).toNat ""

/-- Words for the ordinals that have one. -/
def ordinalWord? : Locale → Int → Option String
  | english, 1 => some "first"
  | english, 2 => some "second"
  | english, 3 => some "third"
  | english, 4 => some "fourth"
  | english, 5 => some "fifth"
  | english, -1 => some "last"
  | english, -2 => some "second last"
  | english, -3 => some "third last"
  | arabic, 1 => some "الأول"
  | arabic, 2 => some "الثاني"
  | arabic, 3 => some "الثالث"
  | arabic, 4 => some "الرابع"
  | arabic, 5 => some "الخامس"
  | arabic, -1 => some "الأخير"
  | arabic, -2 => some "قبل الأخير"
  | _, _ => none

/-- An ordinal in words where there is a word for it, and in figures otherwise. -/
def ordinalText (locale : Locale) (n : Int) : String :=
  match locale.ordinalWord? n with
  | some word => word
  | none =>
    match locale with
    | english => ordinal n
    | arabic => showInt n

end Locale

/-- The two-letter codes of the weekdays, Monday first. -/
def weekdayCodes : List String := ["MO", "TU", "WE", "TH", "FR", "SA", "SU"]

/-- Code of a weekday that has one. -/
def weekdayCode (weekday : Int) : String := weekdayCodes.getD (weekday % 7).toNat ""

/-- Whether a number can be looked up among the weekdays. -/
def hasWeekdayName (weekday : Int) : Bool := decide (-7 ≤ weekday) && decide (weekday ≤ 6)

end HijriRecurrence
