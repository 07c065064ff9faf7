import HijriRecurrence.Calendar.Basic

/-!
# Civil dates as day numbers

The rule that numbers civil dates and the rule backwards are two halves of one correspondence.

* `dayNumber_ofDayNumber` — the date of a number has this number, for every integer;
* `valid_ofDayNumber` — the date exists when its year is one of 1 to 9999;
* `monthStart_succ` — each month starts when the days of the month before it are over, so that
  numbers grow with dates: `dayNumber_lt_iff_before`;
* `civilOfDayNumber_eq_ok` — a date that exists is the date of its number.
-/

namespace HijriRecurrence

namespace CivilDate

/-! ### Numbers of dates of numbers -/

/-- Number of days from 1 March of one year to 1 March of another: years since the start of the
count. -/
def daysOfYears (years : Int) : Int := 365 * years + years / 4 - years / 100 + years / 400

/-- A date given by its year and month from March on is numbered by whole years and whole months. -/
theorem dayNumberOf_fromMarch {month : Int} (years day : Int) (hm : 0 ≤ month ∧ month ≤ 11) :
    dayNumberOf (years - 4800 + month / 10) (month + 3 - 12 * (month / 10)) day =
      day + (153 * month + 2) / 5 + daysOfYears years - 32045 := by
  have hshift : (14 - (month + 3 - 12 * (month / 10))) / 12 = month / 10 := by omega
  unfold dayNumberOf daysOfYears
  dsimp only
  rw [hshift, show years - 4800 + month / 10 + 4800 - month / 10 = years by omega,
    show month + 3 - 12 * (month / 10) + 12 * (month / 10) - 3 = month by omega]
  omega

/-- Whole centuries and years of a century make whole years. -/
theorem daysOfYears_century {centuries years : Int} (h : 0 ≤ years ∧ years ≤ 99) :
    daysOfYears (100 * centuries + years) =
      36524 * centuries + centuries / 4 + 365 * years + years / 4 := by
  have hfour : (100 * centuries + years) / 4 = 25 * centuries + years / 4 := by omega
  have hhundred : (100 * centuries + years) / 100 = centuries := by omega
  have hcycle : (100 * centuries + years) / 400 = centuries / 4 := by omega
  unfold daysOfYears
  rw [hfour, hhundred, hcycle]
  omega

theorem centuries_mul_div (n : Int) : 146097 * n / 4 = 36524 * n + n / 4 := by omega

theorem years_mul_div (n : Int) : 1461 * n / 4 = 365 * n + n / 4 := by omega

/-- The century, year, month and day of the year that a number is taken apart into. -/
theorem exists_ofDayNumber (n : Int) :
    ∃ centuries years month dayOfYear : Int,
      (0 ≤ years ∧ years ≤ 99) ∧ (0 ≤ month ∧ month ≤ 11) ∧
      n + 32044 = 36524 * centuries + centuries / 4 + 365 * years + years / 4 + dayOfYear ∧
      365 * years + years / 4 + dayOfYear < 36524 + ((centuries + 1) / 4 - centuries / 4) ∧
      dayOfYear < 365 + ((years + 1) / 4 - years / 4) ∧
      (153 * month + 2) / 5 ≤ dayOfYear ∧ dayOfYear < (153 * (month + 1) + 2) / 5 ∧
      ofDayNumber n = ⟨100 * centuries + years - 4800 + month / 10,
        month + 3 - 12 * (month / 10), dayOfYear - (153 * month + 2) / 5 + 1⟩ := by
  unfold ofDayNumber
  simp only [centuries_mul_div, years_mul_div]
  generalize hb : (4 * (n + 32044) + 3) / 146097 = b
  generalize hc : n + 32044 - (36524 * b + b / 4) = c
  generalize hd : (4 * c + 3) / 1461 = d
  generalize he : c - (365 * d + d / 4) = e
  generalize hm : (5 * e + 2) / 153 = m
  have hc0 : 0 ≤ c ∧ c < 36524 + ((b + 1) / 4 - b / 4) := by omega
  have hd0 : 0 ≤ d ∧ d ≤ 99 := by omega
  have he0 : 0 ≤ e ∧ e < 365 + ((d + 1) / 4 - d / 4) := by omega
  have hm0 : 0 ≤ m ∧ m ≤ 11 := by omega
  exact ⟨b, d, m, e, hd0, hm0, by omega, by omega, he0.2, by omega, by omega, rfl⟩

/-- **The date of a number has this number.** -/
@[simp] theorem dayNumber_ofDayNumber (n : Int) : (ofDayNumber n).dayNumber = n := by
  obtain ⟨centuries, years, month, dayOfYear, hyears, hmonth, hn, -, -, -, -, hdate⟩ :=
    exists_ofDayNumber n
  rw [hdate]
  have hnumber := dayNumberOf_fromMarch (100 * centuries + years)
    (dayOfYear - (153 * month + 2) / 5 + 1) hmonth
  rw [daysOfYears_century hyears] at hnumber
  exact hnumber.trans (by omega)

/-- A year from March on has 366 days only when it ends with a leap day. -/
theorem isCivilLeapYear_of_longYear {centuries years : Int} (hyears : 0 ≤ years ∧ years ≤ 99)
    (hlong : 365 < 365 + ((years + 1) / 4 - years / 4))
    (hcentury : 365 * years + years / 4 + 365 < 36524 + ((centuries + 1) / 4 - centuries / 4)) :
    isCivilLeapYear (100 * centuries + years - 4800 + 1) = true := by
  have hquarter : years % 4 = 3 := by omega
  have hcycle : years = 99 → centuries % 4 = 3 := by
    rintro rfl
    omega
  rw [isCivilLeapYear, Bool.and_eq_true, Bool.or_eq_true, bne_iff_ne, beq_iff_eq, beq_iff_eq]
  refine ⟨by omega, ?_⟩
  by_cases hlast : years = 99
  · have hfull := hcycle hlast
    exact Or.inr (by omega)
  · exact Or.inl (by omega)

/-- **The date of a number exists,** when its year is one of 1 to 9999. -/
theorem valid_ofDayNumber {n : Int} (hlow : 1 ≤ (ofDayNumber n).year)
    (hhigh : (ofDayNumber n).year ≤ 9999) : (ofDayNumber n).Valid := by
  obtain ⟨centuries, years, month, dayOfYear, hyears, hmonth, -, hcentury, hyear, hstart, hend,
    hdate⟩ := exists_ofDayNumber n
  refine ⟨hlow, hhigh, ?_⟩
  rw [hdate]
  dsimp only
  have hnew : month / 10 = 0 ∧ month ≤ 9 ∨ month / 10 = 1 ∧ 10 ≤ month := by omega
  refine ⟨by omega, by omega, by omega, ?_⟩
  have hcases : month = 0 ∨ month = 1 ∨ month = 2 ∨ month = 3 ∨ month = 4 ∨ month = 5 ∨
      month = 6 ∨ month = 7 ∨ month = 8 ∨ month = 9 ∨ month = 10 ∨ month = 11 := by omega
  have hfebruary : month = 11 → dayOfYear - 337 + 1 ≤
      if isCivilLeapYear (100 * centuries + years - 4800 + 1) then 29 else 28 := by
    intro hlast
    by_cases hlong : dayOfYear = 365
    · rw [isCivilLeapYear_of_longYear hyears (by omega) (by omega), if_pos rfl]
      omega
    · split <;> omega
  unfold daysInCivilMonth
  rcases hcases with rfl | rfl | rfl | rfl | rfl | rfl | rfl | rfl | rfl | rfl | rfl | rfl
  case inr.inr.inr.inr.inr.inr.inr.inr.inr.inr.inr => exact hfebruary rfl
  all_goals
    simp only [Int.reduceMul, Int.reduceDiv, Int.reduceAdd, Int.reduceSub, Int.reduceEq, or_self,
      or_true, true_or, if_true, if_false] at hstart hend ⊢
    omega

/-! ### Months one after the other -/

/-- Number of the first day of a month, counted from January of year 0. -/
def monthStart (month : Int) : Int := dayNumberOf (month / 12) (month % 12 + 1) 1

/-- Number of days of a month, counted from January of year 0. -/
def monthLength (month : Int) : Int := daysInCivilMonth (month / 12) (month % 12 + 1)

theorem monthLength_bounds (month : Int) : 28 ≤ monthLength month ∧ monthLength month ≤ 31 := by
  unfold monthLength daysInCivilMonth
  repeat' split
  all_goals omega

/-- A day is numbered from the first of its month. -/
theorem dayNumberOf_day (year month day : Int) :
    dayNumberOf year month day = dayNumberOf year month 1 + (day - 1) := by
  unfold dayNumberOf
  dsimp only
  omega

/-- From one 1 March to the next there are 366 days when the later year is a leap year. -/
theorem daysOfYears_succ (year : Int) :
    daysOfYears (year + 4800) =
      daysOfYears (year + 4799) + (if isCivilLeapYear year then 366 else 365) := by
  have hleap : isCivilLeapYear year = true ↔
      year % 4 = 0 ∧ (¬year % 100 = 0 ∨ year % 400 = 0) := by
    rw [isCivilLeapYear, Bool.and_eq_true, Bool.or_eq_true, bne_iff_ne, beq_iff_eq, beq_iff_eq]
  unfold daysOfYears
  by_cases h : isCivilLeapYear year = true
  · have hyear := hleap.1 h
    rw [if_pos h]
    omega
  · have hyear := mt hleap.2 h
    rw [if_neg h]
    omega

theorem dayNumberOf_of_le {year month : Int} (day : Int) (hm : 3 ≤ month ∧ month ≤ 12) :
    dayNumberOf year month day =
      day + (153 * (month - 3) + 2) / 5 + daysOfYears (year + 4800) - 32045 := by
  have hnone : (14 - month) / 12 = 0 := by omega
  unfold dayNumberOf daysOfYears
  dsimp only
  rw [hnone, Int.mul_zero, Int.add_zero, Int.sub_zero]
  omega

theorem dayNumberOf_of_lt {year month : Int} (day : Int) (hm : 1 ≤ month ∧ month < 3) :
    dayNumberOf year month day =
      day + (153 * (month + 9) + 2) / 5 + daysOfYears (year + 4799) - 32045 := by
  have hone : (14 - month) / 12 = 1 := by omega
  unfold dayNumberOf daysOfYears
  dsimp only
  rw [hone, Int.mul_one, show month + 12 - 3 = month + 9 by omega,
    show year + 4800 - 1 = year + 4799 by omega]
  omega

/-- From March on, months of 31 and 30 days come one after the other as the rule has them. -/
theorem daysFromMarch_succ {month : Int} (hm : 3 ≤ month ∧ month ≤ 11) :
    (153 * (month + 1 - 3) + 2) / 5 = (153 * (month - 3) + 2) / 5 +
      if month = 4 ∨ month = 6 ∨ month = 9 ∨ month = 11 then 30 else 31 := by
  have hcases : month = 3 ∨ month = 4 ∨ month = 5 ∨ month = 6 ∨ month = 7 ∨ month = 8 ∨
      month = 9 ∨ month = 10 ∨ month = 11 := by omega
  rcases hcases with rfl | rfl | rfl | rfl | rfl | rfl | rfl | rfl | rfl <;> decide

/-- **A month starts when the days of the month before it are over.** -/
theorem monthStart_succ (month : Int) :
    monthStart (month + 1) = monthStart month + monthLength month := by
  have hsame : month % 12 ≠ 11 → (month + 1) / 12 = month / 12 ∧
      (month + 1) % 12 = month % 12 + 1 := by omega
  have hnew : month % 12 = 11 → (month + 1) / 12 = month / 12 + 1 ∧ (month + 1) % 12 = 0 := by
    omega
  have hleap := daysOfYears_succ (month / 12)
  have hcases : month % 12 = 0 ∨ month % 12 = 1 ∨ (2 ≤ month % 12 ∧ month % 12 ≤ 10) ∨
      month % 12 = 11 := by omega
  unfold monthStart monthLength daysInCivilMonth
  rcases hcases with hm | hm | hm | hm
  · obtain ⟨hyear, hmonth⟩ := hsame (by omega)
    rw [hyear, hmonth, hm, dayNumberOf_of_lt _ (by omega), dayNumberOf_of_lt _ (by omega)]
    simp only [Int.reduceMul, Int.reduceDiv, Int.reduceAdd, Int.reduceEq, or_self, if_false]
    omega
  · obtain ⟨hyear, hmonth⟩ := hsame (by omega)
    rw [hyear, hmonth, hm, dayNumberOf_of_le _ (by omega), dayNumberOf_of_lt _ (by omega), hleap]
    simp only [Int.reduceMul, Int.reduceDiv, Int.reduceAdd, Int.reduceSub, if_true]
    split <;> omega
  · obtain ⟨hyear, hmonth⟩ := hsame (by omega)
    rw [hyear, hmonth, dayNumberOf_of_le _ (by omega), dayNumberOf_of_le _ (by omega),
      if_neg (by omega), daysFromMarch_succ (by omega)]
    omega
  · obtain ⟨hyear, hmonth⟩ := hnew hm
    rw [hyear, hmonth, hm, dayNumberOf_of_lt _ (by omega), dayNumberOf_of_le _ (by omega),
      show month / 12 + 1 + 4799 = month / 12 + 4800 by omega]
    simp only [Int.reduceMul, Int.reduceDiv, Int.reduceAdd, Int.reduceSub, Int.reduceEq, or_self,
      if_false]
    omega

/-- A month is over before a later one starts. -/
theorem monthStart_add_le {month later : Int} (h : month < later) :
    monthStart month + monthLength month ≤ monthStart later := by
  obtain ⟨steps, rfl⟩ := Int.le.dest (show month + 1 ≤ later by omega)
  induction steps with
  | zero => simp [monthStart_succ]
  | succ steps ih =>
    have hpos := monthLength_bounds (month + 1 + steps)
    have hnext := monthStart_succ (month + 1 + steps)
    rw [show month + 1 + ((steps + 1 : Nat) : Int) = month + 1 + steps + 1 by omega]
    have hle := ih (by omega)
    omega

/-! ### The order of dates -/

variable {g h : CivilDate}

/-- Position of a date's month, counted from January of year 0. -/
def monthIndex (g : CivilDate) : Int := 12 * g.year + (g.month - 1)

/-- A date that exists lies in its month. -/
theorem dayNumber_eq (hg : g.Valid) :
    g.dayNumber = monthStart g.monthIndex + (g.day - 1) ∧
      1 ≤ g.day ∧ g.day ≤ monthLength g.monthIndex := by
  obtain ⟨-, -, hm, hm', hd, hd'⟩ := hg
  have hyear : g.monthIndex / 12 = g.year := by
    unfold monthIndex
    omega
  have hmonth : g.monthIndex % 12 + 1 = g.month := by
    unfold monthIndex
    omega
  unfold monthStart monthLength
  rw [hyear, hmonth]
  exact ⟨dayNumberOf_day _ _ _, hd, hd'⟩

theorem before_iff : g.before h = true ↔
    g.year < h.year ∨ g.year = h.year ∧
      (g.month < h.month ∨ g.month = h.month ∧ g.day < h.day) := by
  simp [before]

/-- A later date that exists has a greater number. -/
theorem dayNumber_lt_of_before (hg : g.Valid) (hh : h.Valid) (hb : g.before h = true) :
    g.dayNumber < h.dayNumber := by
  obtain ⟨hgn, hgd, hgd'⟩ := dayNumber_eq hg
  obtain ⟨hhn, hhd, hhd'⟩ := dayNumber_eq hh
  obtain ⟨-, -, hgm, hgm', -⟩ := hg
  obtain ⟨-, -, hhm, hhm', -⟩ := hh
  have horder : g.monthIndex < h.monthIndex ∨
      g.monthIndex = h.monthIndex ∧ g.day < h.day := by
    unfold monthIndex
    rcases before_iff.1 hb with hyear | ⟨hyear, hmonth | ⟨hmonth, hday⟩⟩ <;> omega
  rcases horder with hlt | ⟨heq, hday⟩
  · have hle := monthStart_add_le hlt
    omega
  · rw [heq] at hgn
    omega

/-- Of two dates one is before the other, or they are the same. -/
theorem before_or_eq_or_before (g h : CivilDate) :
    g.before h = true ∨ g = h ∨ h.before g = true := by
  rw [before_iff, before_iff]
  obtain ⟨y, m, d⟩ := g
  obtain ⟨y', m', d'⟩ := h
  simp only [mk.injEq]
  omega

/-- **Dates that exist stand in the order of their numbers.** -/
theorem dayNumber_lt_iff_before (hg : g.Valid) (hh : h.Valid) :
    g.dayNumber < h.dayNumber ↔ g.before h = true := by
  refine ⟨fun hlt => ?_, dayNumber_lt_of_before hg hh⟩
  rcases before_or_eq_or_before g h with hb | rfl | hb
  · exact hb
  · omega
  · have hgt := dayNumber_lt_of_before hh hg hb
    omega

/-- Dates that exist are told apart by their numbers. -/
theorem dayNumber_inj (hg : g.Valid) (hh : h.Valid) : g.dayNumber = h.dayNumber ↔ g = h := by
  refine ⟨fun heq => ?_, congrArg dayNumber⟩
  rcases before_or_eq_or_before g h with hb | rfl | hb
  · have hlt := dayNumber_lt_of_before hg hh hb
    omega
  · rfl
  · have hlt := dayNumber_lt_of_before hh hg hb
    omega

/-! ### The years 1 to 9999 -/

theorem dayNumber_bounds_of_valid (hg : g.Valid) :
    civilEpoch < g.dayNumber ∧ g.dayNumber ≤ civilEpoch + lastCivilOrdinal := by
  have hfirst : dayNumber ⟨1, 1, 1⟩ = civilEpoch + 1 := by decide
  have hlast : dayNumber ⟨9999, 12, 31⟩ = civilEpoch + lastCivilOrdinal := by decide
  have hvalid : (⟨1, 1, 1⟩ : CivilDate).Valid ∧ (⟨9999, 12, 31⟩ : CivilDate).Valid := by decide
  have hnotBefore : ¬g.before ⟨1, 1, 1⟩ = true := by
    obtain ⟨hy, -, hm, -, hd, -⟩ := hg
    rw [before_iff]
    dsimp only
    omega
  have hnotAfter : ¬(⟨9999, 12, 31⟩ : CivilDate).before g = true := by
    have hlength := monthLength_bounds g.monthIndex
    obtain ⟨-, -, hd⟩ := dayNumber_eq hg
    obtain ⟨-, hy, -, hm, -, -⟩ := hg
    rw [before_iff]
    dsimp only
    omega
  rw [← dayNumber_lt_iff_before hg hvalid.1] at hnotBefore
  rw [← dayNumber_lt_iff_before hvalid.2 hg] at hnotAfter
  omega

/-- The year of a number.  Years are counted from March on, and the days from January on belong to
the next one. -/
theorem exists_year_ofDayNumber (n : Int) :
    ∃ centuries years dayOfYear : Int,
      (0 ≤ years ∧ years ≤ 99) ∧
      n + 32044 = 36524 * centuries + centuries / 4 + 365 * years + years / 4 + dayOfYear ∧
      365 * years + years / 4 + dayOfYear < 36524 + ((centuries + 1) / 4 - centuries / 4) ∧
      ((0 ≤ dayOfYear ∧ dayOfYear < 306) ∧
          (ofDayNumber n).year = 100 * centuries + years - 4800 ∨
        (306 ≤ dayOfYear ∧ dayOfYear < 366) ∧
          (ofDayNumber n).year = 100 * centuries + years - 4799) := by
  obtain ⟨centuries, years, month, dayOfYear, hyears, hmonth, hn, hcentury, hyear, hstart, hend,
    hdate⟩ := exists_ofDayNumber n
  have hnew : month / 10 = 0 ∧ 0 ≤ dayOfYear ∧ dayOfYear < 306 ∨
      month / 10 = 1 ∧ 306 ≤ dayOfYear ∧ dayOfYear < 366 := by omega
  refine ⟨centuries, years, dayOfYear, hyears, hn, hcentury, ?_⟩
  rw [hdate]
  dsimp only
  omega

/-- The years from 1 on are those of the numbers after the epoch. -/
theorem one_le_year_ofDayNumber {n : Int} : 1 ≤ (ofDayNumber n).year ↔ civilEpoch < n := by
  obtain ⟨centuries, years, dayOfYear, hyears, hn, hcentury, hyear⟩ := exists_year_ofDayNumber n
  unfold civilEpoch
  omega

/-- The years up to 9999 are those of the numbers up to the last one. -/
theorem year_ofDayNumber_le {n : Int} :
    (ofDayNumber n).year ≤ 9999 ↔ n ≤ civilEpoch + lastCivilOrdinal := by
  obtain ⟨centuries, years, dayOfYear, hyears, hn, hcentury, hyear⟩ := exists_year_ofDayNumber n
  -- the last day falls in century 147 from March on
  have hlast : centuries ≤ 146 ∨ centuries = 147 ∨ 148 ≤ centuries := by omega
  unfold civilEpoch lastCivilOrdinal
  rcases hlast with hbefore | rfl | hafter
  · omega
  · omega
  · omega

theorem year_ofDayNumber_bounds {n : Int} (h : civilEpoch < n ∧ n ≤ civilEpoch + lastCivilOrdinal) :
    1 ≤ (ofDayNumber n).year ∧ (ofDayNumber n).year ≤ 9999 :=
  ⟨one_le_year_ofDayNumber.2 h.1, year_ofDayNumber_le.2 h.2⟩

/-- Every ordinal up to the last one is that of a date. -/
theorem valid_ofOrdinal {n : Int} (h : 1 ≤ n ∧ n ≤ lastCivilOrdinal) : (ofOrdinal n).Valid := by
  obtain ⟨hlow, hhigh⟩ := year_ofDayNumber_bounds (n := n + civilEpoch) (by omega)
  exact valid_ofDayNumber hlow hhigh

@[simp] theorem dayNumber_ofOrdinal (n : Int) : (ofOrdinal n).dayNumber = n + civilEpoch :=
  dayNumber_ofDayNumber _

/-- The date of the number of a date is the date. -/
theorem ofDayNumber_dayNumber (hg : g.Valid) : ofDayNumber g.dayNumber = g := by
  obtain ⟨hlow, hhigh⟩ := year_ofDayNumber_bounds (dayNumber_bounds_of_valid hg)
  exact (dayNumber_inj (valid_ofDayNumber hlow hhigh) hg).1 (dayNumber_ofDayNumber _)

end CivilDate

/-- **The date of a number is found exactly for the days of the years 1 to 9999,** and it exists. -/
theorem civilOfDayNumber_eq_ok {n : Int} {g : CivilDate} :
    civilOfDayNumber n = .ok g ↔ g.Valid ∧ g.dayNumber = n := by
  have hrange : 1 ≤ (CivilDate.ofDayNumber n).year → (CivilDate.ofDayNumber n).year ≤ 9999 →
      civilOfDayNumber n = .ok (CivilDate.ofDayNumber n) := by
    intro hlow hhigh
    rw [civilOfDayNumber, if_neg (by omega), if_neg (by omega)]
  constructor
  · intro h
    unfold civilOfDayNumber at h
    dsimp only at h
    split at h
    · cases h
    · split at h
      · cases h
      · obtain rfl := Except.ok.inj h
        exact ⟨CivilDate.valid_ofDayNumber (by omega) (by omega),
          CivilDate.dayNumber_ofDayNumber n⟩
  · rintro ⟨hg, rfl⟩
    obtain ⟨hlow, hhigh⟩ :=
      CivilDate.year_ofDayNumber_bounds (CivilDate.dayNumber_bounds_of_valid hg)
    rw [hrange hlow hhigh, CivilDate.ofDayNumber_dayNumber hg]

end HijriRecurrence
