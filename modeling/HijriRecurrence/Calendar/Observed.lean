import HijriRecurrence.Calendar.Basic
import HijriRecurrence.Calendar.Host
import HijriRecurrence.Number.Binary64

/-!
# The observed calendar

A host converts civil dates to lunar days and nothing else.  The way back is a search: an estimate
from mean year and month lengths, then a binary search of a window around it, and, where that was
led astray by gaps, a linear scan of the same window.  A month has 30 days when its thirtieth day is
found, and 29 when only the twenty-ninth is (`probeMonth`).

A calculation does not search for a month length itself.  It asks for it, so that whoever makes the
calculation may answer from a cache; `answers` answers by a search every time.
-/

namespace HijriRecurrence.Observed

/-- Half the width of the window that is searched, in days. -/
def searchWindow : Int := 60

/-- Ordinal of 1 Muharram of year 1 among civil dates. -/
def epochOrdinal : Int := 227015

def meanYear : Rat := Binary64.round53 (35436667 / 100000)

def meanMonth : Rat := Binary64.round53 (29530589 / 1000000)

/-- The ordinal at which a lunar day is expected. -/
def estimate (d : LunarDay) : Except Error Int :=
  match Binary64.ofInt? (d.year - 1) with
  | none => .error .numberTooLarge
  | some years =>
    let round := Binary64.round53
    let months := round (round (years * meanYear) + round ((d.month - 1) * meanMonth))
    .ok (epochOrdinal + (round (round (months + d.day) - 1)).floor)

def ofCivil (host : Host) (g : CivilDate) : Except Error LunarDay :=
  match host g with
  | .ok day => .ok day
  | .error reason => .error (.hostRefused g.text reason)

/-- The lunar day at an ordinal, where the host knows it.  There is no civil date beyond the last
ordinal. -/
def probe (host : Host) (ordinal : Int) : Except Error (Option LunarDay) :=
  if lastCivilOrdinal < ordinal then .error (.civilBeyondEnd ordinal)
  else
    match host (CivilDate.ofOrdinal ordinal) with
    | .ok day => .ok (some day)
    | .error _ => .ok none

/-- Binary search for the ordinal of a lunar day.  A day that the host does not know counts as
earlier than the target before the estimate and as later after it. -/
def halve (host : Host) (target : LunarDay) (expected low high : Int) :
    Except Error (Option Int) :=
  if _h : low ≤ high then
    let mid := (low + high) / 2
    match probe host mid with
    | .error e => .error e
    | .ok found =>
      if found = some target then .ok (some mid)
      else
        let early := match found with
          | none => decide (mid < expected)
          | some day => decide (day < target)
        if early then halve host target expected (mid + 1) high
        else halve host target expected low (mid - 1)
  else .ok none
termination_by (high - low + 1).toNat
decreasing_by all_goals omega

/-- Linear search for the ordinal of a lunar day among consecutive ordinals. -/
def scan (host : Host) (target : LunarDay) (first : Int) : Nat → Except Error (Option Int)
  | 0 => .ok none
  | count + 1 =>
    match probe host first with
    | .error e => .error e
    | .ok found =>
      if found = some target then .ok (some first) else scan host target (first + 1) count

/-- The civil date of a lunar day: the one in the window that the host maps to it. -/
def search (host : Host) (target : LunarDay) : Except Error CivilDate := do
  let expected ← estimate target
  let first := max 1 (expected - searchWindow)
  let last := expected + searchWindow
  match ← halve host target expected first last with
  | some ordinal => return CivilDate.ofOrdinal ordinal
  | none =>
    match ← scan host target first (last + 1 - first).toNat with
    | some ordinal => return CivilDate.ofOrdinal ordinal
    | none => throw (.noCivilDay target)

/-- The civil date of a lunar day; a triple that is no day of any month is refused. -/
def toCivil (host : Host) (d : LunarDay) : Except Error CivilDate := do
  checkMonth d.month
  if d.year < 1 then throw (.beforeFirstYear (.int d.year))
  if d.day < 1 ∨ 30 < d.day then throw (.dayBeyondMonths (.int d.day))
  search host d

/-- The civil date of a day given as any values.  Numbers are looked for by their amount, so that a
fraction is never found, and the message that tells of it cannot be written for one. -/
def toCivilOfGiven (host : Host) (year month day : Value) : Except Error CivilDate :=
  match year, month, day with
  | .int y, .int m, .int d => toCivil host ⟨y, m, d⟩
  | _, _, _ => do
    let m ← readMonth month
    let y ← (Quantity.ofValue year).amount
    if y < 1 then throw (.beforeFirstYear year)
    let d ← (Quantity.ofValue day).amount
    if d < 1 ∨ 30 < d then throw (.dayBeyondMonths day)
    match search host ⟨y.floor, m, d.floor⟩ with
    | .ok g => if y.den = 1 ∧ d.den = 1 then return g else throw .notCivil
    | .error e =>
      if e.kind = .conversionFailure ∧ (year.countable?.isNone ∨ day.countable?.isNone) then
        throw .notCivil
      else throw e

/-- Number of days of a month from 1 to 12, found by looking for its last days. -/
def probeMonth (host : Host) (year month : Int) : Except Error Int :=
  match toCivil host ⟨year, month, 30⟩ with
  | .ok _ => .ok 30
  | .error e =>
    if e.kind = .conversionFailure then (toCivil host ⟨year, month, 29⟩).map fun _ => 29
    else .error e

/-- What a search answers to every inquiry. -/
def answers (host : Host) : Answers
  | .calendar => ()
  | .month year month => (probeMonth host year month).map .whole

/-- Number of days of a month, for any month: asked for, once the month is one from 1 to 12. -/
def monthLength (year month : Int) : Calculation Quantity := do
  checkMonth month
  .ask (.month year month) Calculation.ofExcept

def dayNumber (host : Host) (d : LunarDay) : Except Error Int :=
  (toCivil host d).map CivilDate.dayNumber

/-- The lunar day of a day number: that of the civil date with this number. -/
def ofDayNumber (host : Host) (n : Int) : Except Error LunarDay := do
  ofCivil host (← civilOfDayNumber n)

/-- The observed calendar of a host.  Its conversions search; its month lengths are asked for. -/
def calendar (host : Host) : Calendar where
  variant := .ummAlQura
  monthLength := monthLength
  yearLength year := sumMonths (monthLength year) allMonths
  isLeapYear year := do return (← monthLength year 12).equals 30
  ofCivil := ofCivil host
  toCivil := toCivil host
  dayNumber := dayNumber host
  ofDayNumber := ofDayNumber host
  toCivilOfGiven := toCivilOfGiven host
  dayNumberOfGiven year month day :=
    (toCivilOfGiven host year month day).map CivilDate.dayNumber

end HijriRecurrence.Observed
