import HijriRecurrence.Rule.Options
import HijriRecurrence.Rule.Weekdays

/-!
# Rules in words

A rule is described by phrases in a fixed order: how often it recurs, its months, month days and
weekdays, its count, and its last date.  English and Arabic share the order and differ in their
vocabulary, in the Arabic dual, and in how month days and counts are put.
-/

namespace HijriRecurrence

open Text

/-- The words that descriptions are made of. -/
structure Vocabulary where
  every : String
  units : Frequency → String × String
  conjunction : String
  onWord : String
  inWord : String
  forWord : String
  time : String
  times : String
  untilWord : String
  separator : String
  dayWord : String

namespace Vocabulary

def english : Vocabulary where
  every := "every"
  units
    | .yearly => ("year", "years")
    | .monthly => ("month", "months")
    | .weekly => ("week", "weeks")
    | .daily => ("day", "days")
    | .hourly => ("hour", "hours")
    | .minutely => ("minute", "minutes")
    | .secondly => ("second", "seconds")
  conjunction := "and"
  onWord := "on"
  inWord := "in"
  forWord := "for"
  time := "time"
  times := "times"
  untilWord := "until"
  separator := ", "
  dayWord := "day"

def arabic : Vocabulary where
  every := "كل"
  units
    | .yearly => ("سنة", "سنوات")
    | .monthly => ("شهر", "أشهر")
    | .weekly => ("أسبوع", "أسابيع")
    | .daily => ("يوم", "أيام")
    | .hourly => ("ساعة", "ساعة")
    | .minutely => ("دقيقة", "دقيقة")
    | .secondly => ("ثانية", "ثانية")
  conjunction := "و"
  onWord := "في"
  inWord := "في"
  forWord := "لمدة"
  time := "مرة"
  times := "مرات"
  untilWord := "حتى"
  separator := "، "
  dayWord := "اليوم"

def of : Locale → Vocabulary
  | .english => english
  | .arabic => arabic

/-- A list in words: separators, and a conjunction before the last item. -/
def enumerate (words : Vocabulary) (items : List String) : String :=
  match items with
  | [item] => item
  | _ =>
    words.separator.intercalate items.dropLast ++ " " ++ words.conjunction ++ " " ++
      items.getLastD ""

end Vocabulary

namespace RuleOptions

/-- How often a rule recurs, in words. -/
def frequencyPhrase (o : RuleOptions) (locale : Locale) : String :=
  let words := Vocabulary.of locale
  let unit := words.units o.frequency
  if o.interval = 1 then words.every ++ " " ++ unit.1
  else if locale = .arabic ∧ o.interval = 2 then words.every ++ " " ++ unit.1 ++ "ين"
  else words.every ++ " " ++ showInt o.interval ++ " " ++ unit.2

def monthDaysPhrase (o : RuleOptions) (locale : Locale) : String :=
  let words := Vocabulary.of locale
  match locale with
  | .arabic =>
    words.onWord ++ " " ++ words.dayWord ++ " " ++ words.enumerate (o.allMonthDays.map showInt)
  | .english =>
    words.onWord ++ " " ++ words.enumerate (o.allMonthDays.map fun day =>
      if 0 < day then "the " ++ ordinal day
      else "the " ++ locale.ordinalText day ++ " " ++ words.dayWord)

def countPhrase (count : Int) (locale : Locale) : String :=
  let words := Vocabulary.of locale
  match locale with
  | .arabic =>
    if count = 1 then words.forWord ++ " " ++ words.time ++ " واحدة"
    else if count = 2 then words.forWord ++ " مرتين"
    else words.forWord ++ " " ++ showInt count ++ " " ++ words.times
  | .english =>
    words.forWord ++ " " ++ showInt count ++ " " ++ if count = 1 then words.time else words.times

def lastPhrase (last : LunarDate) (locale : Locale) : String :=
  let words := Vocabulary.of locale
  match locale with
  | .arabic =>
    words.untilWord ++ " " ++ showInt last.day ++ " " ++ locale.monthName last.month ++ " " ++
      showInt last.year
  | .english =>
    words.untilWord ++ " " ++ ordinal last.day ++ " " ++ locale.monthName last.month ++ " " ++
      showInt last.year ++ " AH"

def phrases (o : RuleOptions) (locale : Locale) : List String :=
  let words := Vocabulary.of locale
  let onDays (days : List Weekday) : List String :=
    if days.isEmpty then []
    else [words.onWord ++ " " ++ words.enumerate (days.map (·.words locale))]
  [o.frequencyPhrase locale] ++
  (if o.months.isEmpty then []
    else [words.inWord ++ " " ++ words.enumerate (o.months.map locale.monthName)]) ++
  (if o.allMonthDays.isEmpty then [] else [o.monthDaysPhrase locale]) ++
  onDays o.weekdays ++ onDays o.nthWeekdays ++
  (match o.count with
    | some count => [countPhrase count locale]
    | none => []) ++
  (match o.last with
    | some last => [lastPhrase last locale]
    | none => [])

def describe (o : RuleOptions) (locale : Locale) : Except Error String :=
  Weekday.written (o.allWeekdays.map (·.number)) (" ".intercalate (o.phrases locale))

end RuleOptions

end HijriRecurrence
