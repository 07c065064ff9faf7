import HijriRecurrence.Calendar.Basic

/-!
# Candidates

A rule proposes days by a month and a quantity of days into it.  The quantity is a whole number
unless somebody gave a month a length that is none: then the last day of that month is no day
either, and no date can be built on it (`Candidate.toDay`).

Candidates are ordered by year, then month, then the amount of their days, so that candidates that
are days stand in the order of the days (`ofDay_before_ofDay`).
-/

namespace HijriRecurrence

/-- A day that a rule proposes. -/
structure Candidate where
  year : Int
  month : Int
  day : Quantity
deriving Repr

namespace Candidate

def ofDay (d : LunarDay) : Candidate := ⟨d.year, d.month, .whole d.day⟩

/-- The day that a candidate is; one in the middle of a day is refused. -/
def toDay (c : Candidate) : Except Error LunarDay :=
  c.day.day.map fun day => ⟨c.year, c.month, day⟩

/-- Whether one candidate comes before another: in year, or in month of the same year, or in days of
the same month. -/
def before (a b : Candidate) : Bool :=
  decide (a.year < b.year) || (a.year == b.year &&
    (decide (a.month < b.month) || (a.month == b.month && a.day.before b.day)))

def weekday (c : Candidate) (cal : Calendar) : Except Error Int :=
  match c.day with
  | .whole day => cal.weekday ⟨c.year, c.month, day⟩
  | .given day => (cal.dayNumberOfGiven (.int c.year) (.int c.month) day).map (· % 7)

theorem before_iff (a b : Candidate) :
    a.before b = true ↔ a.year < b.year ∨
      (a.year = b.year ∧
        (a.month < b.month ∨ (a.month = b.month ∧ a.day.before b.day = true))) := by
  simp [before]

@[simp] theorem ofDay_before_ofDay (a b : LunarDay) :
    (ofDay a).before (ofDay b) = decide (a < b) := by
  rw [Bool.eq_iff_iff, before_iff, decide_eq_true_eq, LunarDay.lt_def]
  simp [ofDay]

theorem ofDay_injective {a b : LunarDay} (h : ofDay a = ofDay b) : a = b := by
  cases a
  cases b
  simpa [ofDay] using h

/-- Puts a candidate into an increasing list, in the place of one that is neither before nor after
it. -/
def insert (c : Candidate) : List Candidate → List Candidate
  | [] => [c]
  | e :: rest =>
    if c.before e then c :: e :: rest else if e.before c then e :: insert c rest else c :: rest

/-- The candidates of a list in increasing order; of those at the same place the first one. -/
def sorted (candidates : List Candidate) : List Candidate := candidates.foldr insert []

theorem insert_ofDay (d : LunarDay) (days : List LunarDay) :
    insert (ofDay d) (days.map ofDay) = (d.insertInto days).map ofDay := by
  induction days with
  | nil => rfl
  | cons e rest ih =>
    simp only [List.map_cons, insert, LunarDay.insertInto, ofDay_before_ofDay, decide_eq_true_eq]
    split
    · rfl
    · split
      · simp [ih]
      · rfl

/-- Candidates that are days are sorted as the days are. -/
theorem sorted_ofDay (days : List LunarDay) :
    sorted (days.map ofDay) = (LunarDay.sorted days).map ofDay := by
  induction days with
  | nil => rfl
  | cons d rest ih =>
    show insert (ofDay d) (sorted (rest.map ofDay)) = _
    rw [ih, insert_ofDay]
    rfl

end Candidate

end HijriRecurrence
