import HijriRecurrence.Calendar.Tabular

/-!
# Day numbers of the tabular calendar

A day number is the start of the year, the days of the months before, and the day of the month.
Years follow each other without a gap, months follow each other within a year, and so day numbers
grow exactly as days do.

* `yearStart_succ` — the next year starts when all days of this one are over;
* `daysBeforeMonth_succ` — the next month starts when all days of this one are over;
* `dayNumberOf_lt_iff` — of two days the earlier one has the smaller number;
* `dayNumberOf_injective` — a day is known by its number.
-/

namespace HijriRecurrence.Tabular

/-! ### Lengths -/

theorem monthDays_bounds (year month : Int) :
    29 ≤ monthDays year month ∧ monthDays year month ≤ 30 := by
  unfold monthDays
  split
  · omega
  · split <;> omega

theorem yearDays_bounds (year : Int) : 354 ≤ yearDays year ∧ yearDays year ≤ 355 := by
  unfold yearDays
  split <;> omega

/-- A month starts when the month before it is over. -/
theorem daysBeforeMonth_succ (year month : Int) (hm : 1 ≤ month) (hl : month ≤ 11) :
    daysBeforeMonth (month + 1) = daysBeforeMonth month + monthDays year month := by
  have h12 : ¬(month = 12 ∧ isLeapYear year) := by
    rintro ⟨h, -⟩
    omega
  rw [monthDays, if_neg h12]
  unfold daysBeforeMonth
  split <;> omega

/-- The months of a year add up to the year. -/
theorem daysBeforeMonth_last (year : Int) :
    daysBeforeMonth 12 + monthDays year 12 = yearDays year := by
  unfold daysBeforeMonth monthDays yearDays
  by_cases h : isLeapYear year <;> simp [h]

/-- The days of a month come before those of any later month of the year. -/
theorem daysBeforeMonth_add_le (year : Int) {m n : Int} (hm : 1 ≤ m) (hmn : m < n) (hn : n ≤ 12) :
    daysBeforeMonth m + monthDays year m ≤ daysBeforeMonth n := by
  rw [← daysBeforeMonth_succ year m hm (by omega)]
  unfold daysBeforeMonth
  omega

theorem daysBeforeMonth_nonneg {month : Int} (hm : 1 ≤ month) : 0 ≤ daysBeforeMonth month := by
  unfold daysBeforeMonth
  omega

/-! ### Starts of years -/

def yearStart (year : Int) : Int :=
  epoch + ((year - 1) / cycleYears) * cycleDays +
    yearOffsets.getD ((year - 1) % cycleYears).toNat 0

theorem yearOffsets_getD {position : Nat} (h : position < 30) :
    yearOffsets.getD position 0 = yearOffset position := by
  simp [yearOffsets, List.getD_eq_getElem?_getD, h]

/-- Whether a year is a leap year is a matter of its position in the cycle. -/
theorem yearDays_eq_position (year : Int) :
    yearDays year = yearDays (((year - 1) % cycleYears).toNat + 1) := by
  have h : ((((year - 1) % cycleYears).toNat : Int) + 1 - 1) % cycleYears =
      (year - 1) % cycleYears := by
    unfold cycleYears
    omega
  unfold yearDays isLeapYear
  rw [h]

/-- Thirty years make a cycle. -/
theorem yearOffset_cycle : yearOffset 30 = cycleDays := by decide

theorem yearStart_succ (year : Int) : yearStart (year + 1) = yearStart year + yearDays year := by
  have hr : ((year - 1) % cycleYears).toNat < 30 := by
    unfold cycleYears
    omega
  rw [yearDays_eq_position]
  unfold yearStart
  rw [yearOffsets_getD hr]
  rcases Nat.lt_or_ge ((year - 1) % cycleYears).toNat 29 with hlt | hge
  · -- within a cycle the offset moves on by one year
    have hdiv : (year + 1 - 1) / cycleYears = (year - 1) / cycleYears := by
      unfold cycleYears at *
      omega
    have hmod : ((year + 1 - 1) % cycleYears).toNat = ((year - 1) % cycleYears).toNat + 1 := by
      unfold cycleYears at *
      omega
    rw [hdiv, hmod, yearOffsets_getD (by omega), yearOffset]
    omega
  · -- the last year of a cycle leads into the next cycle
    have h29 : ((year - 1) % cycleYears).toNat = 29 := by omega
    have hdiv : (year + 1 - 1) / cycleYears = (year - 1) / cycleYears + 1 := by
      unfold cycleYears at *
      omega
    have hmod : ((year + 1 - 1) % cycleYears).toNat = 0 := by
      unfold cycleYears at *
      omega
    have hcycle : yearOffset 29 + yearDays ((29 : Nat) + 1) = cycleDays := yearOffset_cycle
    rw [hdiv, hmod, h29, yearOffsets_getD (by omega), yearOffset, Int.add_mul]
    omega

/-- The days of a year come before any later year. -/
theorem yearStart_add_le {year later : Int} (h : year < later) :
    yearStart year + yearDays year ≤ yearStart later := by
  obtain ⟨n, rfl⟩ : ∃ n : Nat, later = year + 1 + n := ⟨(later - year - 1).toNat, by omega⟩
  clear h
  induction n with
  | zero =>
    rw [Int.natCast_zero, Int.add_zero]
    exact Int.le_of_eq (yearStart_succ year).symm
  | succ n ih =>
    have hlast := (yearDays_bounds (year + 1 + n)).1
    rw [show year + 1 + ((n + 1 : Nat) : Int) = year + 1 + n + 1 by omega, yearStart_succ]
    omega

/-! ### Numbers of days -/

theorem dayNumberOf_eq (d : LunarDay) :
    dayNumberOf d = yearStart d.year + daysBeforeMonth d.month + d.day - 1 := rfl

theorem isDay_mk {year month day : Int} :
    IsDay ⟨year, month, day⟩ ↔
      1 ≤ year ∧ 1 ≤ month ∧ month ≤ 12 ∧ 1 ≤ day ∧ day ≤ monthDays year month := Iff.rfl

theorem dayNumberOf_mk (year month day : Int) :
    dayNumberOf ⟨year, month, day⟩ = yearStart year + daysBeforeMonth month + day - 1 := rfl

/-- A day of a year has a number of that year. -/
theorem dayNumberOf_mem_year {d : LunarDay} (h : IsDay d) :
    yearStart d.year ≤ dayNumberOf d ∧ dayNumberOf d < yearStart d.year + yearDays d.year := by
  obtain ⟨-, hm, hm', hd, hd'⟩ := h
  have hnonneg := daysBeforeMonth_nonneg hm
  rw [dayNumberOf_eq]
  refine ⟨by omega, ?_⟩
  rw [← daysBeforeMonth_last]
  rcases Int.lt_or_eq_of_le hm' with hlt | heq
  · have := daysBeforeMonth_add_le d.year hm hlt (Int.le_refl 12)
    have := (monthDays_bounds d.year 12).1
    omega
  · rw [heq] at hd' ⊢
    omega

theorem dayNumberOf_lt {a b : LunarDay} (ha : IsDay a) (hb : IsDay b) (h : a < b) :
    dayNumberOf a < dayNumberOf b := by
  rcases (LunarDay.lt_def a b).1 h with hy | ⟨hy, hm | ⟨hm, hd⟩⟩
  · -- an earlier year
    have := (dayNumberOf_mem_year ha).2
    have := (dayNumberOf_mem_year hb).1
    have := yearStart_add_le hy
    omega
  · -- an earlier month of the same year
    have := daysBeforeMonth_add_le a.year ha.2.1 hm hb.2.2.1
    have := ha.2.2.2.2
    have := hb.2.2.2.1
    rw [dayNumberOf_eq, dayNumberOf_eq, hy] at *
    omega
  · -- an earlier day of the same month
    rw [dayNumberOf_eq, dayNumberOf_eq, hy, hm]
    omega

/-- **Day numbers grow as days do.** -/
theorem dayNumberOf_lt_iff {a b : LunarDay} (ha : IsDay a) (hb : IsDay b) :
    dayNumberOf a < dayNumberOf b ↔ a < b := by
  refine ⟨fun h => ?_, dayNumberOf_lt ha hb⟩
  rcases LunarDay.lt_trichotomy a b with hlt | rfl | hgt
  · exact hlt
  · omega
  · have := dayNumberOf_lt hb ha hgt
    omega

theorem dayNumberOf_le_iff {a b : LunarDay} (ha : IsDay a) (hb : IsDay b) :
    dayNumberOf a ≤ dayNumberOf b ↔ a ≤ b := by
  rw [LunarDay.le_def, ← dayNumberOf_lt_iff hb ha]
  omega

theorem dayNumberOf_injective {a b : LunarDay} (ha : IsDay a) (hb : IsDay b)
    (h : dayNumberOf a = dayNumberOf b) : a = b := by
  rcases LunarDay.lt_trichotomy a b with hlt | heq | hgt
  · have := dayNumberOf_lt ha hb hlt
    omega
  · exact heq
  · have := dayNumberOf_lt hb ha hgt
    omega

/-- A day that is refused a number is none, and any other has the number of the sum. -/
theorem dayNumber_eq_ok {d : LunarDay} {n : Int} :
    dayNumber d = .ok n ↔ IsDay d ∧ dayNumberOf d = n := by
  by_cases h : IsDay d
  · rw [dayNumber_of_isDay h]
    simp [h]
  · have hne : dayNumber d ≠ .ok n := by
      unfold dayNumber
      by_cases hy : d.year < 1
      · simp [hy, throw, throwThe, MonadExceptOf.throw, bind, Except.bind]
      · cases monthLength d.year d.month <;>
          simp [hy, h, throw, throwThe, MonadExceptOf.throw, bind, Except.bind]
    simp [h, hne]

end HijriRecurrence.Tabular
