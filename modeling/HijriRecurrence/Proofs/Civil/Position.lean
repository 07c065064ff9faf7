import HijriRecurrence.Proofs.Civil.DayNumber

/-!
# Civil days counted by the calendar

The rule that numbers civil dates works with centuries, with years that start in March and with
fifths of months.  The calendar itself says less: how long each month and each year is, and that
1 January of year 1 is the first day, a Monday.  Here days are counted by the calendar alone, and the
rule is shown to come to the same numbers.

* `CivilDate.position` — the days of the years before, of the months before, and of the month;
* `CivilDate.dayNumber_eq_position` — the number of a date is its position, moved by a constant;
* `CivilDate.dayNumber_nextDay` — the day that follows has the number that follows;
* `civilOfDayNumber_of_le`, `civilOfDayNumber_of_lt` — what is refused before and after the dates;
* `civilOfDayNumber_numbering` — both directions, with what each refuses.
-/

namespace HijriRecurrence

/-! ### Counting days -/

def daysInCivilYear (year : Int) : Int := if isCivilLeapYear year then 366 else 365

/-- Number of days of so many years from year 1 on. -/
def daysOfFirstYears : Nat → Int
  | 0 => 0
  | years + 1 => daysOfFirstYears years + daysInCivilYear (years + 1)

/-- Number of days of so many months of a year from January on. -/
def daysOfFirstMonths (year : Int) : Nat → Int
  | 0 => 0
  | months + 1 => daysOfFirstMonths year months + daysInCivilMonth year (months + 1)

/-- The months of a year add up to the year. -/
theorem daysOfFirstMonths_twelve (year : Int) :
    daysOfFirstMonths year 12 = daysInCivilYear year := by
  cases hleap : isCivilLeapYear year <;>
    simp [daysOfFirstMonths, daysInCivilYear, daysInCivilMonth, hleap]

namespace CivilDate

/-- Position of a date among all days from 1 January of year 1 on, which is the first. -/
def position (g : CivilDate) : Int :=
  daysOfFirstYears (g.year - 1).toNat + daysOfFirstMonths g.year (g.month - 1).toNat + g.day

/-- Weekday of a date, Monday being 0; the first day is a Monday. -/
def weekday (g : CivilDate) : Int := (g.position - 1) % 7

/-- The day after a day: the next one of the month, after the last one the first of the next month,
and after the last month the first of the next year. -/
def nextDay (g : CivilDate) : CivilDate :=
  if g.day < daysInCivilMonth g.year g.month then ⟨g.year, g.month, g.day + 1⟩
  else if g.month < 12 then ⟨g.year, g.month + 1, 1⟩
  else ⟨g.year + 1, 1, 1⟩

/-! ### Starts of months and years -/

/-- A month of a year starts when the months before it are over. -/
theorem monthStart_firstMonths (year : Int) (months : Nat) (h : months ≤ 12) :
    monthStart (12 * year + months) = monthStart (12 * year) + daysOfFirstMonths year months := by
  induction months with
  | zero => simp [daysOfFirstMonths]
  | succ months ih =>
    have hyear : (12 * year + (months : Int)) / 12 = year := by omega
    have hmonth : (12 * year + (months : Int)) % 12 = months := by omega
    have hlength : monthLength (12 * year + months) = daysInCivilMonth year (months + 1) := by
      rw [monthLength, hyear, hmonth]
    calc monthStart (12 * year + ((months + 1 : Nat) : Int))
        = monthStart (12 * year + months + 1) := by
          rw [Int.natCast_add, Int.natCast_one, Int.add_assoc]
      _ = monthStart (12 * year + months) + daysInCivilMonth year (months + 1) := by
          rw [monthStart_succ, hlength]
      _ = monthStart (12 * year) + daysOfFirstMonths year (months + 1) := by
          rw [ih (by omega), Int.add_assoc]
          rfl

/-- January of a year starts when the years before it are over. -/
theorem monthStart_firstYears (years : Nat) :
    monthStart (12 * (years + 1)) = civilEpoch + 1 + daysOfFirstYears years := by
  induction years with
  | zero => decide
  | succ years ih =>
    have hyear := monthStart_firstMonths (years + 1) 12 (Nat.le_refl 12)
    rw [daysOfFirstMonths_twelve, ih] at hyear
    rw [show 12 * (((years + 1 : Nat) : Int) + 1) = 12 * ((years : Int) + 1) + ((12 : Nat) : Int) by
      omega, hyear, Int.add_assoc]
    rfl

/-- The first of a month is numbered by the position of its month. -/
theorem monthStart_monthIndex {year month : Int} (hm : 1 ≤ month ∧ month ≤ 12) :
    monthStart (12 * year + (month - 1)) = dayNumberOf year month 1 := by
  have hyear : (12 * year + (month - 1)) / 12 = year := by omega
  have hmonth : (12 * year + (month - 1)) % 12 + 1 = month := by omega
  rw [monthStart, hyear, hmonth]

variable {g : CivilDate}

/-- **The number of a date is its position by the calendar,** moved by a constant. -/
theorem dayNumber_eq_position (hg : g.Valid) : g.dayNumber = g.position + civilEpoch := by
  obtain ⟨hnumber, -, -⟩ := dayNumber_eq hg
  obtain ⟨hy, -, hm, hm', -, -⟩ := hg
  have hyears : (((g.year - 1).toNat : Nat) : Int) + 1 = g.year := by omega
  have hmonths : (((g.month - 1).toNat : Nat) : Int) = g.month - 1 := by omega
  have hyear := monthStart_firstYears (g.year - 1).toNat
  have hmonth := monthStart_firstMonths g.year (g.month - 1).toNat (by omega)
  rw [hyears] at hyear
  rw [hmonths] at hmonth
  rw [hnumber, monthIndex, hmonth, hyear, position]
  omega

/-- **The day that follows has the number that follows.** -/
theorem dayNumber_nextDay (hg : g.Valid) : g.nextDay.dayNumber = g.dayNumber + 1 := by
  obtain ⟨-, -, hm, hm', hd, hd'⟩ := hg
  have hnumber : g.dayNumber = dayNumberOf g.year g.month 1 + (g.day - 1) := dayNumberOf_day _ _ _
  -- the next month starts when the days of this one are over
  have hlength : monthLength (12 * g.year + (g.month - 1)) = daysInCivilMonth g.year g.month := by
    rw [monthLength, show (12 * g.year + (g.month - 1)) / 12 = g.year by omega,
      show (12 * g.year + (g.month - 1)) % 12 + 1 = g.month by omega]
  have hnext := monthStart_succ (12 * g.year + (g.month - 1))
  rw [monthStart_monthIndex ⟨hm, hm'⟩, hlength] at hnext
  unfold nextDay
  split
  · show dayNumberOf g.year g.month (g.day + 1) = _
    rw [dayNumberOf_day, hnumber]
    omega
  · split
    · show dayNumberOf g.year (g.month + 1) 1 = _
      rw [← monthStart_monthIndex (by omega), Int.add_sub_cancel, hnumber,
        show 12 * g.year + g.month = 12 * g.year + (g.month - 1) + 1 by omega, hnext]
      omega
    · show dayNumberOf (g.year + 1) 1 1 = _
      rw [← monthStart_monthIndex (by omega), hnumber,
        show 12 * (g.year + 1) + (1 - 1) = 12 * g.year + (g.month - 1) + 1 by omega, hnext]
      omega

theorem daysInCivilMonth_pos (year month : Int) : 1 ≤ daysInCivilMonth year month := by
  unfold daysInCivilMonth
  repeat' split
  all_goals omega

/-- The day that follows exists, except after the last of all. -/
theorem valid_nextDay (hg : g.Valid) (hlast : g ≠ ⟨9999, 12, 31⟩) : g.nextDay.Valid := by
  obtain ⟨hy, hy', hm, hm', hd, hd'⟩ := hg
  unfold nextDay
  split
  · rename_i hlt
    exact ⟨hy, hy', hm, hm', by show 1 ≤ g.day + 1; omega, hlt⟩
  · rename_i hend
    split
    · rename_i hmonth
      exact ⟨hy, hy', by show 1 ≤ g.month + 1; omega, by show g.month + 1 ≤ 12; omega,
        Int.le_refl 1, daysInCivilMonth_pos _ _⟩
    · have hyear : g.year ≠ 9999 := by
        intro hyear
        have hmonth : g.month = 12 := by omega
        have hday : g.day = 31 := by
          have hlength : daysInCivilMonth g.year g.month = 31 := by rw [hyear, hmonth]; decide
          omega
        apply hlast
        rw [← hyear, ← hmonth, ← hday]
      exact ⟨by show 1 ≤ g.year + 1; omega, by show g.year + 1 ≤ 9999; omega, Int.le_refl 1,
        by show (1 : Int) ≤ 12; decide, Int.le_refl 1, daysInCivilMonth_pos _ _⟩

end CivilDate

/-! ### Numbers of no date -/

/-- The days before the first have years before year 1. -/
theorem civilOfDayNumber_of_le {n : Int} (h : n ≤ civilEpoch) :
    civilOfDayNumber n = .error (.civilBeforeYearOne (.int n)) := by
  have hyear := mt CivilDate.one_le_year_ofDayNumber.1 (Int.not_lt.2 h)
  rw [civilOfDayNumber, if_pos (Int.not_le.1 hyear)]

/-- The days after the last have years after year 9999. -/
theorem civilOfDayNumber_of_lt {n : Int} (h : civilEpoch + lastCivilOrdinal < n) :
    9999 < (CivilDate.ofDayNumber n).year ∧
      civilOfDayNumber n = .error (.civilBeyondEnd (CivilDate.ofDayNumber n).year) := by
  have hyear : 9999 < (CivilDate.ofDayNumber n).year :=
    Int.not_le.1 (mt CivilDate.year_ofDayNumber_le.1 (Int.not_le.2 h))
  refine ⟨hyear, ?_⟩
  rw [civilOfDayNumber, if_neg (by omega), if_pos hyear]

/-- Between the first day and the last every number has a date. -/
theorem exists_civilOfDayNumber {n : Int} (hlow : civilEpoch < n)
    (hhigh : n ≤ civilEpoch + lastCivilOrdinal) :
    ∃ g : CivilDate, g.Valid ∧ civilOfDayNumber n = .ok g := by
  obtain ⟨hyear, hyear'⟩ := CivilDate.year_ofDayNumber_bounds ⟨hlow, hhigh⟩
  have hvalid := CivilDate.valid_ofDayNumber hyear hyear'
  exact ⟨_, hvalid, civilOfDayNumber_eq_ok.2 ⟨hvalid, CivilDate.dayNumber_ofDayNumber n⟩⟩

/-- A number is out of range exactly when it comes before the first day's. -/
theorem civilOfDayNumber_outOfRange_iff {n : Int} :
    (∃ e, civilOfDayNumber n = .error e ∧ e.kind = .outOfRange) ↔ n ≤ civilEpoch := by
  constructor
  · intro hrefused
    obtain ⟨e, he, hkind⟩ := hrefused
    apply Int.le_of_not_gt
    intro hlow
    by_cases hhigh : n ≤ civilEpoch + lastCivilOrdinal
    · obtain ⟨g, -, hg⟩ := exists_civilOfDayNumber hlow hhigh
      rw [hg] at he
      cases he
    · -- past the last day the failure is of another kind
      rw [(civilOfDayNumber_of_lt (Int.not_le.1 hhigh)).2] at he
      obtain rfl := Except.error.inj he
      unfold Error.kind at hkind
      dsimp only at hkind
      split at hkind <;> cases hkind
  · intro h
    exact ⟨_, civilOfDayNumber_of_le h, rfl⟩

/-! ### The correspondence -/

end HijriRecurrence
