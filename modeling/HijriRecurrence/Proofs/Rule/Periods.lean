import HijriRecurrence.Proofs.Tabular.PeriodDays

/-!
# The periods of a rule

The cursor of a period is found from the first date by one shift.  In the tabular calendar it is a
day that can be named at once (`cursorDay`): for months and years exactly, and for weeks and days
whenever the shift by days is exact (`CountsDaysExactly`).

Periods follow each other.  A day proposed in a period is not before the first day of the period
(`firstOfPeriod`) and not after a last possible day (`endOfPeriod`), and the latter is not after the
first day of any later period (`endOfPeriod_le_firstOfPeriod`).  A day pushed into the next month or
year by the skip policy is the one case in which the two can meet.
-/

namespace HijriRecurrence.RuleOptions

open Tabular

variable {ctx : Context} {answers : Answers} {o : RuleOptions}

/-! ### Cursors -/

/-- Days from the first date of a rule to the cursor of a period, for rules that count days. -/
def daysTo (o : RuleOptions) (period : Int) : Int :=
  match o.frequency with
  | .yearly | .monthly => 0
  | .weekly => 7 * (period * o.interval)
  | .daily => period * o.interval
  | .hourly | .minutely | .secondly => period

def cursorDay (o : RuleOptions) (period : Int) : LunarDay :=
  match o.frequency with
  | .yearly => clamp (o.start.year + period * o.interval) o.start.month o.start.day
  | .monthly =>
    let total := LunarDate.monthIndex o.start.toLunarDay + period * o.interval
    clamp (total / 12 + 1) (total % 12 + 1) o.start.day
  | _ => dayAt (Tabular.dayNumberOf o.start.toLunarDay + o.daysTo period)

/-- The walk of a rule reaches every cursor, and every day of a week, by an exact shift. -/
structure CountsDaysExactly (ctx : Context) (answers : Answers) (o : RuleOptions) : Prop where
  cursor : ∀ period, 0 ≤ period → period < o.periodLimit →
    o.start.ShiftsExactly ctx answers (o.daysTo period)
  week : ∀ period cursor, 0 ≤ period → period < o.periodLimit →
    (o.cursor ctx period).outcome answers = .ok cursor → o.WeekIsExact ctx answers cursor

theorem Normalized.isDay_start (ho : o.Normalized ctx answers) (hv : o.variant = .tabular) :
    IsDay o.start.toLunarDay :=
  (ho.start.isTabular (ho.start_variant.trans hv)).isDay

/-- A step to a later period is not backwards. -/
theorem Normalized.step_nonneg (ho : o.Normalized ctx answers) {period : Int} (hk : 0 ≤ period) :
    0 ≤ period * o.interval := by
  have hi := ho.interval
  exact Int.mul_nonneg hk (by omega)

/-- Later periods are further on by the interval at least. -/
theorem Normalized.step_add_le (ho : o.Normalized ctx answers) {period later : Int}
    (h : period < later) : period * o.interval + o.interval ≤ later * o.interval := by
  have hi := ho.interval
  have hle : (period + 1) * o.interval ≤ later * o.interval :=
    Int.mul_le_mul_of_nonneg_right (by omega) (by omega)
  rw [Int.add_mul, Int.one_mul] at hle
  exact hle

theorem daysTo_nonneg (ho : o.Normalized ctx answers) {period : Int} (hk : 0 ≤ period) :
    0 ≤ o.daysTo period := by
  have hstep := ho.step_nonneg hk
  unfold daysTo
  split <;> omega

/-- Rules by months and years count no days. -/
theorem shiftsExactly_of_months (ho : o.Normalized ctx answers) (hv : o.variant = .tabular)
    (hf : o.frequency = .yearly ∨ o.frequency = .monthly) (period : Int) :
    o.start.ShiftsExactly ctx answers (o.daysTo period) := by
  have hzero : o.daysTo period = 0 := by
    unfold daysTo
    rcases hf with h | h <;> rw [h]
  rw [hzero]
  exact LunarDate.shiftsExactly_zero (ho.start.isTabular (ho.start_variant.trans hv))

theorem weekIsExact_of_months (hf : o.frequency = .yearly ∨ o.frequency = .monthly)
    (cursor : LunarDate) : o.WeekIsExact ctx answers cursor := by
  intro hweek
  rcases hf with h | h <;> exact absurd (h.symm.trans hweek) (by decide)

theorem countsDaysExactly_of_months (ho : o.Normalized ctx answers) (hv : o.variant = .tabular)
    (hf : o.frequency = .yearly ∨ o.frequency = .monthly) : o.CountsDaysExactly ctx answers where
  cursor period _ _ := shiftsExactly_of_months ho hv hf period
  week _ cursor _ _ _ := weekIsExact_of_months hf cursor

/-- **The cursor of a period is found, and it is the day named above.** -/
theorem outcome_cursor (ho : o.Normalized ctx answers) (hv : o.variant = .tabular) {period : Int}
    (hk : 0 ≤ period) (hshift : o.start.ShiftsExactly ctx answers (o.daysTo period)) :
    ∃ cursor, (o.cursor ctx period).outcome answers = .ok cursor ∧ cursor.Built ctx answers ∧
      cursor.variant = .tabular ∧ cursor.toLunarDay = o.cursorDay period := by
  have hsv := ho.start_variant.trans hv
  have hday := ho.isDay_start hv
  have hstep := ho.step_nonneg hk
  obtain ⟨hy, hm, hm', hd, -⟩ := hday
  unfold cursor
  unfold daysTo at hshift
  unfold cursorDay daysTo
  cases hfreq : o.frequency with
  | yearly =>
    have hshifted := LunarDate.outcome_addYears ho.start hsv
      (show 1 ≤ o.start.year + period * o.interval by omega)
    refine ⟨_, Calculation.outcome_bind_ok hshifted _, ?_, hsv, rfl⟩
    exact ho.start.onDay hsv (isDay_clamp (by omega) ⟨hm, hm'⟩ hd)
  | monthly =>
    have hindex : 0 ≤ LunarDate.monthIndex o.start.toLunarDay := by
      unfold LunarDate.monthIndex
      omega
    have hshifted := LunarDate.outcome_addMonths ho.start hsv
      (show 0 ≤ LunarDate.monthIndex o.start.toLunarDay + period * o.interval by omega)
    refine ⟨_, Calculation.outcome_bind_ok hshifted _, ?_, hsv, rfl⟩
    exact ho.start.onDay hsv (isDay_clamp (by omega) (by omega) hd)
  | weekly | daily | hourly | minutely | secondly =>
    rw [hfreq] at hshift
    exact LunarDate.exists_of_shiftsExactly ho.start hsv hshift

/-- A cursor that is found is a date of the rule's calendar, whether the shift to it is exact or
not. -/
theorem built_of_cursor (ho : o.Normalized ctx answers) (hv : o.variant = .tabular) {period : Int}
    (hk : 0 ≤ period) {cursor : LunarDate}
    (h : (o.cursor ctx period).outcome answers = .ok cursor) :
    cursor.Built ctx answers ∧ cursor.variant = .tabular := by
  have hsv := ho.start_variant.trans hv
  have hmonths (hf : o.frequency = .yearly ∨ o.frequency = .monthly) :
      cursor.Built ctx answers ∧ cursor.variant = .tabular := by
    obtain ⟨found, hfound, hbuilt, hcv, -⟩ :=
      outcome_cursor ho hv hk (shiftsExactly_of_months ho hv hf period)
    obtain rfl := Except.ok.inj (hfound.symm.trans h)
    exact ⟨hbuilt, hcv⟩
  have hdays {days : Int}
      (hshift : (o.start.addDays ctx (.whole days)).outcome answers = .ok cursor) :
      cursor.Built ctx answers ∧ cursor.variant = .tabular :=
    (LunarDate.built_of_addDays ho.start hshift).imp id fun hcv => hcv.trans hsv
  cases hfreq : o.frequency with
  | yearly => exact hmonths (.inl hfreq)
  | monthly => exact hmonths (.inr hfreq)
  | weekly | daily | hourly | minutely | secondly =>
    rw [RuleOptions.cursor, hfreq] at h
    exact hdays h

theorem isDay_cursorDay (ho : o.Normalized ctx answers) (hv : o.variant = .tabular) {period : Int}
    (hk : 0 ≤ period) : IsDay (o.cursorDay period) := by
  have hday := ho.isDay_start hv
  have hstep := ho.step_nonneg hk
  have hdays := daysTo_nonneg ho hk
  have hepoch := epoch_le_dayNumberOf hday
  obtain ⟨hy, hm, hm', hd, -⟩ := hday
  unfold cursorDay
  cases hfreq : o.frequency with
  | yearly => exact isDay_clamp (by omega) ⟨hm, hm'⟩ hd
  | monthly =>
    have hindex : 0 ≤ LunarDate.monthIndex o.start.toLunarDay := by
      unfold LunarDate.monthIndex
      omega
    exact isDay_clamp (by omega) (by omega) hd
  | weekly | daily | hourly | minutely | secondly => exact isDay_dayAt (by omega)

/-- The number of a cursor, for rules that count days. -/
theorem dayNumberOf_cursorDay (ho : o.Normalized ctx answers) (hv : o.variant = .tabular)
    {period : Int} (hk : 0 ≤ period) (hy : o.frequency ≠ .yearly) (hm : o.frequency ≠ .monthly) :
    Tabular.dayNumberOf (o.cursorDay period) =
      Tabular.dayNumberOf o.start.toLunarDay + o.daysTo period := by
  have hepoch := epoch_le_dayNumberOf (ho.isDay_start hv)
  have hdays := daysTo_nonneg ho hk
  unfold cursorDay
  cases hfreq : o.frequency with
  | yearly => exact absurd hfreq hy
  | monthly => exact absurd hfreq hm
  | weekly | daily | hourly | minutely | secondly => exact dayNumberOf_dayAt (by omega)

/-! ### First and last days -/

def firstOfPeriod (o : RuleOptions) (cursor : LunarDay) : LunarDay :=
  match o.frequency with
  | .yearly => ⟨cursor.year, 1, 1⟩
  | .monthly => ⟨cursor.year, cursor.month, 1⟩
  | _ => cursor

theorem periodStart_eq (o : RuleOptions) (cursor : LunarDate) :
    o.periodStart cursor = o.firstOfPeriod cursor.toLunarDay := rfl

/-- The last day that can be proposed in the period of a cursor.  A day that is skipped forward may
be the first one after a month or a year. -/
def endOfPeriod (o : RuleOptions) (cursor : LunarDay) : LunarDay :=
  match o.frequency with
  | .yearly => ⟨cursor.year + 1, 1, 1⟩
  | .monthly => firstOfNextMonth cursor.year cursor.month
  | .weekly => dayAt (Tabular.dayNumberOf cursor + 6)
  | _ => cursor

/-- A day of a year, or the first one after a month of it. -/
theorem span_of_year {year : Int} {d : LunarDay} (hm : 1 ≤ d.month) (hd : 1 ≤ d.day)
    (h : d.year = year ∨ ∃ month, d = firstOfNextMonth year month) :
    (⟨year, 1, 1⟩ : LunarDay) ≤ d ∧ d ≤ ⟨year + 1, 1, 1⟩ := by
  simp only [LunarDay.le_def, LunarDay.lt_def]
  rcases h with rfl | ⟨month, rfl⟩
  · omega
  · unfold firstOfNextMonth at hm ⊢
    by_cases hlast : month = 12
    · rw [if_pos hlast]
      dsimp only
      omega
    · rw [if_neg hlast] at hm ⊢
      dsimp only at hm ⊢
      omega

/-- A day of a month, or the first one after it. -/
theorem span_of_month {year month : Int} {d : LunarDay} (hd : 1 ≤ d.day)
    (h : d.year = year ∧ d.month = month ∨ d = firstOfNextMonth year month) :
    (⟨year, month, 1⟩ : LunarDay) ≤ d ∧ d ≤ firstOfNextMonth year month := by
  rcases h with ⟨rfl, rfl⟩ | rfl
  · refine ⟨?_, LunarDay.le_of_lt (lt_firstOfNextMonth d)⟩
    rw [LunarDay.le_def, LunarDay.lt_def]
    dsimp only
    omega
  · refine ⟨?_, LunarDay.le_refl _⟩
    rw [LunarDay.le_def, LunarDay.lt_def]
    unfold firstOfNextMonth
    split <;> dsimp only <;> omega

theorem isDay_of_mem_daysInYear (ho : o.Normalized ctx answers) {cursor d : LunarDay}
    (hc : IsDay cursor) (h : d ∈ o.daysInYear cursor) :
    IsDay d ∧ ∃ month, d.year = cursor.year ∨ d = firstOfNextMonth cursor.year month := by
  have hneg : ∀ n ∈ o.monthDaysFromEnd, n ≤ -1 := by
    intro n hn
    exact (ho.monthDaysFromEnd n hn).2
  have husual : d ∈ o.usualDaysOfYear cursor →
      IsDay d ∧ ∃ month, d.year = cursor.year ∨ d = firstOfNextMonth cursor.year month := by
    intro hmem
    obtain ⟨hday, hwhere⟩ := isDay_of_mem_usualDaysOfYear ho hc hmem
    exact ⟨hday, cursor.month, hwhere⟩
  unfold daysInYear at h
  split at h
  · obtain ⟨month, hmonth, hmem⟩ := List.mem_flatMap.1 h
    have hrange := ho.months month hmonth
    obtain ⟨hday, hwhere⟩ := isDay_of_mem_daysInMonth hneg hc.1 hrange hc.2.2.2.1 hmem
    exact ⟨hday, month, hwhere.imp And.left id⟩
  · split at h
    · exact husual h
    · exact husual (List.mem_filter.1 h).1

/-- The days of a week are the cursor's and the six after it. -/
theorem exists_of_mem_daysInWeek {cursor d : LunarDay} (hc : IsDay cursor)
    (h : d ∈ o.daysInWeek cursor) :
    ∃ i : Int, 0 ≤ i ∧ i ≤ 6 ∧ d = dayAt (Tabular.dayNumberOf cursor + i) := by
  have hmem := (List.mem_filter.1 h).1
  split at hmem
  · obtain rfl := List.mem_singleton.1 hmem
    refine ⟨0, by decide, by decide, ?_⟩
    rw [Int.add_zero, dayAt_dayNumberOf hc]
  · obtain ⟨i, hi, rfl⟩ := List.mem_map.1 hmem
    have hrange := (List.mem_filter.1 hi).1
    simp only [List.mem_cons, List.not_mem_nil, or_false] at hrange
    exact ⟨i, by omega, by omega, rfl⟩

/-- **A day proposed in a period exists and lies between the ends of the period.** -/
theorem span_of_mem_proposedDays (ho : o.Normalized ctx answers) {cursor d : LunarDay}
    (hc : IsDay cursor) (h : d ∈ o.proposedDays cursor) :
    IsDay d ∧ o.firstOfPeriod cursor ≤ d ∧ d ≤ o.endOfPeriod cursor := by
  have hneg : ∀ n ∈ o.monthDaysFromEnd, n ≤ -1 := by
    intro n hn
    exact (ho.monthDaysFromEnd n hn).2
  have hself : d = cursor → IsDay d ∧ cursor ≤ d ∧ d ≤ cursor := by
    rintro rfl
    exact ⟨hc, LunarDay.le_refl _, LunarDay.le_refl _⟩
  unfold proposedDays at h
  unfold firstOfPeriod endOfPeriod
  cases hfreq : o.frequency with
  | yearly =>
    rw [hfreq] at h
    obtain ⟨hday, month, hwhere⟩ := isDay_of_mem_daysInYear ho hc h
    exact ⟨hday, span_of_year hday.2.1 hday.2.2.2.1 (hwhere.imp id fun hnext => ⟨month, hnext⟩)⟩
  | monthly =>
    simp only [hfreq] at h
    split at h
    · obtain ⟨hday, hwhere⟩ :=
        isDay_of_mem_daysInMonth hneg hc.1 ⟨hc.2.1, hc.2.2.1⟩ hc.2.2.2.1 h
      exact ⟨hday, span_of_month hday.2.2.2.1 hwhere⟩
    · exact absurd h List.not_mem_nil
  | weekly =>
    rw [hfreq] at h
    obtain ⟨i, hi, hi', rfl⟩ := exists_of_mem_daysInWeek hc h
    have hepoch := epoch_le_dayNumberOf hc
    have hday := isDay_dayAt (show epoch ≤ Tabular.dayNumberOf cursor + i by omega)
    have hend := isDay_dayAt (show epoch ≤ Tabular.dayNumberOf cursor + 6 by omega)
    refine ⟨hday, (dayNumberOf_le_iff hc hday).1 ?_, (dayNumberOf_le_iff hday hend).1 ?_⟩
    · rw [dayNumberOf_dayAt (by omega)]
      omega
    · rw [dayNumberOf_dayAt (by omega), dayNumberOf_dayAt (by omega)]
      omega
  | daily =>
    simp only [hfreq] at h
    split at h
    · exact hself (List.mem_singleton.1 h)
    · exact absurd h List.not_mem_nil
  | hourly | minutely | secondly =>
    rw [hfreq] at h
    exact hself (List.mem_singleton.1 h)

theorem firstOfPeriod_le_endOfPeriod {cursor : LunarDay} (hc : IsDay cursor) :
    o.firstOfPeriod cursor ≤ o.endOfPeriod cursor := by
  unfold firstOfPeriod endOfPeriod
  cases o.frequency with
  | yearly =>
    rw [LunarDay.le_def, LunarDay.lt_def]
    dsimp only
    omega
  | monthly =>
    exact LunarDay.le_of_lt (lt_firstOfNextMonth ⟨cursor.year, cursor.month, 1⟩)
  | weekly =>
    have hepoch := epoch_le_dayNumberOf hc
    refine (dayNumberOf_le_iff hc (isDay_dayAt (by omega))).1 ?_
    rw [dayNumberOf_dayAt (by omega)]
    omega
  | daily | hourly | minutely | secondly => exact LunarDay.le_refl _

/-- Of two months, counted from the first one, the earlier is over before the later begins. -/
theorem firstOfNextMonth_le {m n : Int} (h : m < n) :
    firstOfNextMonth (m / 12 + 1) (m % 12 + 1) ≤ ⟨n / 12 + 1, n % 12 + 1, 1⟩ := by
  rw [firstOfNextMonth, LunarDay.le_def, LunarDay.lt_def]
  split <;> dsimp only <;> omega

/-- **A period ends before any later one begins.**  Years and months follow each other, weeks are
seven days long, and days are later by the interval. -/
theorem endOfPeriod_le_firstOfPeriod (ho : o.Normalized ctx answers) (hv : o.variant = .tabular)
    {period later : Int} (hk : 0 ≤ period) (h : period < later) :
    o.endOfPeriod (o.cursorDay period) ≤ o.firstOfPeriod (o.cursorDay later) := by
  have hstep := ho.step_add_le h
  have hinterval := ho.interval
  have hday := isDay_cursorDay ho hv hk
  have hday' := isDay_cursorDay ho hv (show 0 ≤ later by omega)
  have hepoch := epoch_le_dayNumberOf hday
  unfold endOfPeriod firstOfPeriod
  cases hfreq : o.frequency with
  | yearly =>
    unfold cursorDay
    rw [hfreq, LunarDay.le_def, LunarDay.lt_def]
    dsimp only [clamp]
    omega
  | monthly =>
    unfold cursorDay
    rw [hfreq]
    exact firstOfNextMonth_le (by omega)
  | weekly =>
    have hnum := dayNumberOf_cursorDay ho hv hk (by simp [hfreq]) (by simp [hfreq])
    have hnum' := dayNumberOf_cursorDay ho hv (show 0 ≤ later by omega) (by simp [hfreq])
      (by simp [hfreq])
    simp only [daysTo, hfreq] at hnum hnum'
    refine (dayNumberOf_le_iff (isDay_dayAt (by omega)) hday').1 ?_
    rw [dayNumberOf_dayAt (by omega)]
    omega
  | daily | hourly | minutely | secondly =>
    have hnum := dayNumberOf_cursorDay ho hv hk (by simp [hfreq]) (by simp [hfreq])
    have hnum' := dayNumberOf_cursorDay ho hv (show 0 ≤ later by omega) (by simp [hfreq])
      (by simp [hfreq])
    simp only [daysTo, hfreq] at hnum hnum'
    refine (dayNumberOf_le_iff hday hday').1 ?_
    omega

/-! ### Candidates of periods -/

/-- Days that are proposed in different periods stand in the order of the periods. -/
theorem le_of_mem_daysOfPeriod (ho : o.Normalized ctx answers) (hv : o.variant = .tabular)
    {period later : Int} (hk : 0 ≤ period) (h : period < later) {a b : LunarDay}
    (ha : a ∈ o.daysOfPeriod (o.cursorDay period)) (hb : b ∈ o.daysOfPeriod (o.cursorDay later)) :
    a ≤ b := by
  have hday := isDay_cursorDay ho hv hk
  have hday' := isDay_cursorDay ho hv (show 0 ≤ later by omega)
  obtain ⟨-, -, hend⟩ := span_of_mem_proposedDays ho hday (mem_proposedDays_of_mem ha)
  obtain ⟨-, hfirst, -⟩ := span_of_mem_proposedDays ho hday' (mem_proposedDays_of_mem hb)
  exact LunarDay.le_trans hend
    (LunarDay.le_trans (endOfPeriod_le_firstOfPeriod ho hv hk h) hfirst)

/-- A period begins no later than a day that it or a later one proposes. -/
theorem firstOfPeriod_le_of_mem (ho : o.Normalized ctx answers) (hv : o.variant = .tabular)
    {period later : Int} (hk : 0 ≤ period) (h : period ≤ later) {d : LunarDay}
    (hd : d ∈ o.daysOfPeriod (o.cursorDay later)) : o.firstOfPeriod (o.cursorDay period) ≤ d := by
  have hday := isDay_cursorDay ho hv (show 0 ≤ later by omega)
  obtain ⟨-, hfirst, -⟩ := span_of_mem_proposedDays ho hday (mem_proposedDays_of_mem hd)
  rcases Int.lt_or_eq_of_le h with hlt | rfl
  · refine LunarDay.le_trans ?_ hfirst
    refine LunarDay.le_trans ?_ (endOfPeriod_le_firstOfPeriod ho hv hk hlt)
    exact firstOfPeriod_le_endOfPeriod (isDay_cursorDay ho hv hk)
  · exact hfirst

end HijriRecurrence.RuleOptions
