import HijriRecurrence.Proofs.Calendar.KeptDates
import HijriRecurrence.Proofs.Rule.CandidatePlaces
import HijriRecurrence.Proofs.Tabular.PeriodDays

/-!
# Candidates within a month table

In a calendar that keeps a month table, a period whose months and days are in the table can be
worked out, and its candidates are days (`exists_periodDays`).  They are days of the table, but for
one: the first day after a month, to which a missing day is pushed, is proposed without a look at
the month that it opens (`MonthTable.Offers`).

What a period has to have in the table besides the day of its cursor depends on the frequency
(`HasRoom`): a year has to have all its months, and a week its days on the rule's weekdays.
-/

namespace HijriRecurrence

open MonthTable

/-- A day of a table, or the first day after a month, when missing days are skipped forward. -/
def MonthTable.Offers (t : MonthTable) (skip : Skip) (year month : Int) (d : LunarDay) : Prop :=
  t.IsDay d ∨ skip = .forward ∧ d = Tabular.firstOfNextMonth year month

/-- A day of a table, or the first day after one of its months. -/
def MonthTable.Reaches (t : MonthTable) (d : LunarDay) : Prop :=
  t.IsDay d ∨ ∃ year month, (1 ≤ month ∧ month ≤ 12) ∧ t.Has ((year - 1) * 12 + (month - 1)) ∧
    d = Tabular.firstOfNextMonth year month

variable {ctx : Context} {answers : Answers} {cal : Calendar} {t : MonthTable} {year month : Int}

theorem MonthTable.Offers.reaches {skip : Skip} {d : LunarDay} (h : t.Offers skip year month d)
    (hm : 1 ≤ month ∧ month ≤ 12) (hhas : t.Has ((year - 1) * 12 + (month - 1))) : t.Reaches d :=
  h.imp id fun hnext => ⟨year, month, hm, hhas, hnext.2⟩

theorem MonthTable.Reaches.month_pos {d : LunarDay} (h : t.Reaches d) : 1 ≤ d.month := by
  rcases h with hday | ⟨year, month, hm, -, rfl⟩
  · exact hday.1.1
  · unfold Tabular.firstOfNextMonth
    split <;> dsimp only <;> omega

theorem MonthTable.Reaches.day_pos {d : LunarDay} (h : t.Reaches d) : 1 ≤ d.day := by
  rcases h with hday | ⟨year, month, -, -, rfl⟩
  · exact hday.2.2.1
  · unfold Tabular.firstOfNextMonth
    split <;> exact Int.le_refl 1

/-- What a table reaches up to one of its days is in the table. -/
theorem MonthTable.Reaches.isDay {d last : LunarDay} (h : t.Reaches d) (hlast : t.IsDay last)
    (hle : d ≤ last) : t.IsDay d := by
  rcases h with hday | ⟨year, month, hm, hhas, rfl⟩
  · exact hday
  · have hlastMonth := hlast.1
    have hhasLast := hlast.2.1
    unfold LunarDate.monthIndex at hhasLast
    rw [LunarDay.le_def, LunarDay.lt_def] at hle
    unfold Tabular.firstOfNextMonth at hle ⊢
    split at hle <;> rename_i hwhich <;> simp only [hwhich, if_true, if_false]
    · exact isDay_first (by omega) (hhas.between hhasLast ⟨by omega, by dsimp only at hle; omega⟩)
    · exact isDay_first (by omega) (hhas.between hhasLast ⟨by omega, by dsimp only at hle; omega⟩)

/-! ### Months -/

theorem exists_resolveDay (hk : cal.Keeps answers t) (hm : 1 ≤ month ∧ month ≤ 12)
    (hhas : t.Has ((year - 1) * 12 + (month - 1))) (day : Int) (skip : Skip) :
    ∃ found : Option LunarDay,
      (resolveDay cal year month (.whole day) skip).outcome answers = .ok (found.map .ofDay) ∧
        ∀ d ∈ found, t.Offers skip year month d := by
  have hlength := monthDays_bounds hhas
  unfold resolveDay
  rw [Calculation.outcome_bind_ok (a := decide (1 ≤ day)) (by simp)]
  by_cases hpos : 1 ≤ day
  · rw [if_neg (by simp [hpos]), Calculation.outcome_bind_ok (hk.monthLength _ _ hm hhas),
      Calculation.outcome_bind_ok
        (a := decide (day ≤ t.monthDays ((year - 1) * 12 + (month - 1)))) (by simp)]
    by_cases hfit : day ≤ t.monthDays ((year - 1) * 12 + (month - 1))
    · rw [if_pos (by simp [hfit])]
      exact ⟨some ⟨year, month, day⟩, rfl, fun d hd =>
        Or.inl (Option.some.inj hd ▸ (isDay_mk hm).2 ⟨hhas, hpos, hfit⟩)⟩
    · rw [if_neg (by simp [hfit])]
      match skip with
      | .omit => exact ⟨none, rfl, fun d hd => by cases hd⟩
      | .backward =>
        exact ⟨some ⟨year, month, t.monthDays ((year - 1) * 12 + (month - 1))⟩, rfl, fun d hd =>
          Or.inl (Option.some.inj hd ▸ (isDay_mk hm).2 ⟨hhas, by omega, Int.le_refl _⟩)⟩
      | .forward =>
        exact ⟨some (Tabular.firstOfNextMonth year month), rfl, fun d hd =>
          Or.inr ⟨rfl, (Option.some.inj hd).symm⟩⟩
  · rw [if_pos (by simp [hpos])]
    exact ⟨none, rfl, fun d hd => by cases hd⟩

namespace RuleOptions

variable {o : RuleOptions}

/-- A day from the end of a month is a day of the month, or there is none. -/
theorem exists_dayFromEnd (hm : 1 ≤ month ∧ month ≤ 12)
    (hhas : t.Has ((year - 1) * 12 + (month - 1))) {offset : Int} (hneg : offset ≤ -1) :
    ∃ found : Option LunarDay,
      (dayFromEnd year month (.whole (t.monthDays ((year - 1) * 12 + (month - 1)))) offset).outcome
        answers = .ok (found.map .ofDay) ∧ ∀ d ∈ found, t.IsDay d := by
  rw [dayFromEnd, Calculation.outcome_bind_ok
      (a := .whole (t.monthDays ((year - 1) * 12 + (month - 1)) + offset + 1)) (by simp),
    Calculation.outcome_bind_ok
      (a := decide (1 ≤ t.monthDays ((year - 1) * 12 + (month - 1)) + offset + 1)) (by simp)]
  by_cases hpos : 1 ≤ t.monthDays ((year - 1) * 12 + (month - 1)) + offset + 1
  · refine ⟨some ⟨year, month, t.monthDays ((year - 1) * 12 + (month - 1)) + offset + 1⟩,
      by simp [hpos, Candidate.ofDay], fun d hd => ?_⟩
    exact Option.some.inj hd ▸ (isDay_mk hm).2 ⟨hhas, hpos, by omega⟩
  · exact ⟨none, by simp [hpos], fun d hd => by cases hd⟩

theorem exists_datesOnNthWeekdays (hserve : (ctx.serve o.variant).outcome answers = .ok cal)
    (hk : cal.Keeps answers t) (hm : 1 ≤ month ∧ month ≤ 12)
    (hhas : t.Has ((year - 1) * 12 + (month - 1))) :
    ∃ dates : List LunarDate, (o.datesOnNthWeekdays ctx year month).outcome answers = .ok dates ∧
      ∀ e ∈ dates, t.IsDay e.toLunarDay := by
  have hfound : ∀ w ∈ o.nthWeekdays, ∃ found : Option LunarDate,
      (LunarDate.nthWeekdayOfMonth ctx year month w.number (w.ordinal?.getD 0)
        (some (.known o.variant))).outcome answers = .ok (found.map id) ∧
          ∀ e ∈ found, t.IsDay e.toLunarDay := by
    intro w _
    obtain ⟨found, hfound, hall⟩ := LunarDate.outcome_nthWeekday_of_has hserve hk w hm hhas
    exact ⟨found, by rw [Option.map_id_apply]; exact hfound, fun e he => (hall e he).1⟩
  obtain ⟨dates, hdates, hall⟩ := Calculation.exists_outcome_filterMap_map hfound
  rw [List.map_id] at hdates
  exact ⟨dates, hdates, hall⟩

theorem exists_daysOnWeekdays (hk : cal.Keeps answers t) (hm : 1 ≤ month ∧ month ≤ 12)
    (hhas : t.Has ((year - 1) * 12 + (month - 1))) :
    ∃ days : List LunarDay,
      (o.daysOnWeekdays cal year month
        (.whole (t.monthDays ((year - 1) * 12 + (month - 1))))).outcome answers =
          .ok (days.map .ofDay) ∧ ∀ d ∈ days, t.IsDay d := by
  rw [daysOnWeekdays, Calculation.outcome_bind_ok ((Calculation.outcome_liftM _).trans
      (hk.weekday (isDay_first hm hhas))),
    Calculation.outcome_bind_ok (a := t.monthDays ((year - 1) * 12 + (month - 1))) (by simp)]
  refine ⟨((((List.range (t.monthDays ((year - 1) * 12 + (month - 1))).toNat).map
      fun (i : Nat) => (i : Int) + 1).filter fun day => o.weekdayNumbers.contains
        ((t.numberOf ⟨year, month, 1⟩ % 7 + day - 1) % 7)).map fun day => ⟨year, month, day⟩),
    by rw [List.map_map]; rfl, fun d hd => ?_⟩
  obtain ⟨day, hday, rfl⟩ := List.mem_map.1 hd
  obtain ⟨i, hi, rfl⟩ := List.mem_map.1 (List.mem_filter.1 hday).1
  have hrange := List.mem_range.1 hi
  exact (isDay_mk hm).2 ⟨hhas, by omega, by omega⟩

theorem exists_usualDayOf (hm : 1 ≤ month ∧ month ≤ 12)
    (hhas : t.Has ((year - 1) * 12 + (month - 1))) {usualDay : Int} (husual : 1 ≤ usualDay) :
    ∃ days : List LunarDay,
      (usualDayOf year month usualDay
        (.whole (t.monthDays ((year - 1) * 12 + (month - 1))))).outcome answers =
          .ok (days.map .ofDay) ∧ ∀ d ∈ days, t.IsDay d := by
  have hlength := monthDays_bounds hhas
  rw [usualDayOf, Calculation.outcome_bind_ok (a := decide
    (usualDay ≤ t.monthDays ((year - 1) * 12 + (month - 1)))) (by simp)]
  by_cases hfit : usualDay ≤ t.monthDays ((year - 1) * 12 + (month - 1))
  · refine ⟨[⟨year, month, usualDay⟩], by simp [hfit, Candidate.ofDay], fun d hd => ?_⟩
    rw [List.mem_singleton.1 hd]
    exact (isDay_mk hm).2 ⟨hhas, husual, hfit⟩
  · refine ⟨[⟨year, month, t.monthDays ((year - 1) * 12 + (month - 1))⟩],
      by simp [hfit, Candidate.ofDay], fun d hd => ?_⟩
    rw [List.mem_singleton.1 hd]
    exact (isDay_mk hm).2 ⟨hhas, by omega, Int.le_refl _⟩

/-- The candidates of a month of the table. -/
theorem exists_monthCandidates (ho : o.Normalized ctx answers)
    (hserve : (ctx.serve o.variant).outcome answers = .ok cal) (hk : cal.Keeps answers t)
    (hm : 1 ≤ month ∧ month ≤ 12) (hhas : t.Has ((year - 1) * 12 + (month - 1))) {usualDay : Int}
    (husual : 1 ≤ usualDay) :
    ∃ days : List LunarDay,
      (o.monthCandidates ctx cal year month usualDay).outcome answers = .ok (days.map .ofDay) ∧
        ∀ d ∈ days, t.Offers o.skip year month d := by
  -- only a day of the month that is asked for by its number may be pushed out of it
  have hoffers {c : Calculation (List Candidate)}
      (h : ∃ days : List LunarDay, c.outcome answers = .ok (days.map .ofDay) ∧
        ∀ d ∈ days, t.IsDay d) :
      ∃ days : List LunarDay, c.outcome answers = .ok (days.map .ofDay) ∧
        ∀ d ∈ days, t.Offers o.skip year month d := by
    obtain ⟨days, hdays, hall⟩ := h
    exact ⟨days, hdays, fun d hd => Or.inl (hall d hd)⟩
  rw [monthCandidates_eq]
  split
  · exact Calculation.exists_outcome_filterMap_map fun day _ =>
      exists_resolveDay hk hm hhas day o.skip
  rw [Calculation.outcome_bind_ok (hk.monthLength _ _ hm hhas)]
  split
  · exact hoffers (Calculation.exists_outcome_filterMap_map fun offset hoffset =>
      exists_dayFromEnd hm hhas (ho.monthDaysFromEnd offset hoffset).2)
  split
  · obtain ⟨dates, hdates, hall⟩ := exists_datesOnNthWeekdays hserve hk hm hhas
    rw [Calculation.outcome_bind_ok hdates]
    refine hoffers ⟨dates.map LunarDate.toLunarDay, by simp [Function.comp_def], fun d hd => ?_⟩
    obtain ⟨e, he, rfl⟩ := List.mem_map.1 hd
    exact hall e he
  split
  · exact hoffers (exists_daysOnWeekdays hk hm hhas)
  · exact hoffers (exists_usualDayOf hm hhas husual)

theorem exists_monthsCandidates (ho : o.Normalized ctx answers)
    (hserve : (ctx.serve o.variant).outcome answers = .ok cal) (hk : cal.Keeps answers t)
    (hyear : t.HasYear year) {usualDay : Int} (husual : 1 ≤ usualDay) {months : List Int}
    (hmonths : ∀ m ∈ months, 1 ≤ m ∧ m ≤ 12) :
    ∃ days : List LunarDay,
      (o.monthsCandidates ctx cal year usualDay months).outcome answers = .ok (days.map .ofDay) ∧
        ∀ d ∈ days, ∃ m, (1 ≤ m ∧ m ≤ 12) ∧ t.Offers o.skip year m d := by
  induction months with
  | nil => exact ⟨[], rfl, fun d hd => absurd hd List.not_mem_nil⟩
  | cons m rest ih =>
    have hm := hmonths m List.mem_cons_self
    obtain ⟨days, hdays, hall⟩ :=
      exists_monthCandidates ho hserve hk hm (hyear.has hm) husual
    obtain ⟨others, hothers, hall'⟩ := ih fun n hn => hmonths n (List.mem_cons_of_mem m hn)
    rw [monthsCandidates, Calculation.outcome_bind_ok hdays, Calculation.outcome_bind_ok hothers]
    refine ⟨days ++ others, by rw [List.map_append]; rfl, ?_⟩
    exact List.forall_mem_append.2 ⟨fun d hd => ⟨m, hm, hall d hd⟩, hall'⟩

/-! ### Years -/

/-- A position in some months of a year of the table is found on a day, or is beyond them. -/
theorem exists_locate (hk : cal.Keeps answers t) (hyear : t.HasYear year) {months : List Int}
    (hmonths : ∀ m ∈ months, 1 ≤ m ∧ m ≤ 12) {position : Int} (hpos : 1 ≤ position) :
    ∃ found : Option LunarDay,
      (cal.locate year months (.whole position)).outcome answers =
        .ok (found.map fun d => (d.month, .whole d.day)) ∧
      ∀ d ∈ found, t.IsDay d ∧ d.year = year := by
  induction months generalizing position with
  | nil => exact ⟨none, rfl, fun d hd => by cases hd⟩
  | cons m rest ih =>
    have hm := hmonths m List.mem_cons_self
    rw [Calendar.locate, Calculation.outcome_bind_ok (hk.monthLength _ _ hm (hyear.has hm)),
      Calculation.outcome_bind_ok
        (a := decide (position ≤ t.monthDays ((year - 1) * 12 + (m - 1)))) (by simp)]
    by_cases hfit : position ≤ t.monthDays ((year - 1) * 12 + (m - 1))
    · rw [if_pos (by simp [hfit])]
      refine ⟨some ⟨year, m, position⟩, rfl, fun d hd => ?_⟩
      exact Option.some.inj hd ▸ ⟨(isDay_mk hm).2 ⟨hyear.has hm, hpos, hfit⟩, rfl⟩
    · rw [if_neg (by simp [hfit]), Calculation.outcome_bind_ok
        (a := .whole (position - t.monthDays ((year - 1) * 12 + (m - 1)))) (by simp)]
      exact ih (fun n hn => hmonths n (List.mem_cons_of_mem m hn)) (by omega)

/-- From either end of a year a position is looked up in the same way. -/
theorem exists_yearDayAt (hk : cal.Keeps answers t) (hyear : t.HasYear year)
    (length position : Int) :
    ∃ found : Option LunarDay,
      (yearDayAt cal year (.whole length) (.whole position)).outcome answers =
        .ok (found.map .ofDay) ∧ ∀ d ∈ found, t.IsDay d := by
  rw [yearDayAt, Calculation.outcome_bind_ok
    (a := decide (1 ≤ position ∧ position ≤ length)) (by simp)]
  by_cases hrange : 1 ≤ position ∧ position ≤ length
  · obtain ⟨found, hfound, hall⟩ :=
      exists_locate hk hyear (fun m => Tabular.mem_allMonths.1) hrange.1
    rw [if_neg (by simp [hrange]), Calculation.outcome_bind_ok hfound]
    refine ⟨found, ?_, fun d hd => (hall d hd).1⟩
    cases found with
    | none => rfl
    | some d =>
      obtain ⟨-, rfl⟩ := hall d rfl
      rfl
  · rw [if_pos (by simp [hrange])]
    exact ⟨none, rfl, fun d hd => by cases hd⟩

theorem exists_yearDay (hk : cal.Keeps answers t) (hyear : t.HasYear year) (offset : Int) :
    ∃ found : Option LunarDay,
      (yearDay cal year offset).outcome answers = .ok (found.map .ofDay) ∧
        ∀ d ∈ found, t.IsDay d := by
  obtain ⟨length, hlength⟩ :
      ∃ length : Int, (cal.yearLength year).outcome answers = .ok (.whole length) :=
    ⟨_, hk.yearLength year hyear⟩
  rw [yearDay_eq, Calculation.outcome_bind_ok hlength]
  by_cases hpos : 0 < offset
  · rw [if_pos hpos]
    exact exists_yearDayAt hk hyear length offset
  · rw [if_neg hpos, Calculation.outcome_bind_ok (a := .whole (length + offset + 1)) (by simp)]
    exact exists_yearDayAt hk hyear length _

/-- What a period has to have in a table, besides the day of its cursor.  A year that is looked at
for weekdays has to have the first day after it, to which a day may be pushed. -/
def HasRoom (o : RuleOptions) (t : MonthTable) (cursor : LunarDay) : Prop :=
  match o.frequency with
  | .yearly => t.HasYear cursor.year ∧
    (o.months = [] → o.weekdays ≠ [] → o.skip = .forward → t.Has (cursor.year * 12))
  | .weekly => ∀ i : Int, 0 ≤ i → i < 7 →
    o.weekdayNumbers.contains ((t.numberOf cursor + i) % 7) = true →
      t.HasNumber (t.numberOf cursor + i)
  | _ => True

/-- What is offered in a year is in the table with the first day after the year. -/
theorem isDay_of_offers (hyear : t.HasYear year) (hm : 1 ≤ month ∧ month ≤ 12) {skip : Skip}
    (hnext : skip = .forward → t.Has (year * 12)) {d : LunarDay} (h : t.Offers skip year month d) :
    t.IsDay d := by
  rcases h with hday | ⟨hskip, rfl⟩
  · exact hday
  · unfold Tabular.firstOfNextMonth
    split
    · refine isDay_first (by omega) ?_
      rw [show (year + 1 - 1) * 12 + (1 - 1) = year * 12 by omega]
      exact hnext hskip
    · exact isDay_first (by omega) (hyear.has (by omega))

/-- Looking at the weekdays of what is offered in a month keeps some of it; every day that is looked
at has to be in the table. -/
theorem exists_onWeekdays (hk : cal.Keeps answers t) (hyear : t.HasYear year)
    (hm : 1 ≤ month ∧ month ≤ 12) {skip : Skip}
    (hnext : o.weekdays ≠ [] → skip = .forward → t.Has (year * 12)) {days : List LunarDay}
    (hall : ∀ d ∈ days, t.Offers skip year month d) :
    ∃ kept : List LunarDay, (if o.weekdays.isEmpty then pure (days.map .ofDay)
      else o.onWeekdays cal (days.map .ofDay)).outcome answers = .ok (kept.map .ofDay) ∧
        ∀ d ∈ kept, ∃ m, (1 ≤ m ∧ m ≤ 12) ∧ t.Offers skip year m d := by
  by_cases hweekdays : o.weekdays = []
  · rw [hweekdays]
    exact ⟨days, rfl, fun d hd => ⟨month, hm, hall d hd⟩⟩
  · have hdays : ∀ d ∈ days, t.IsDay d := fun d hd =>
      isDay_of_offers hyear hm (hnext hweekdays) (hall d hd)
    rw [if_neg (by simpa using hweekdays)]
    refine ⟨_, outcome_onWeekdays (fun d => t.numberOf d % 7) fun d hd =>
      hk.weekday (hdays d hd), fun d hd => ?_⟩
    exact ⟨month, hm, hall d (List.mem_filter.1 hd).1⟩

theorem exists_yearlyCandidates (ho : o.Normalized ctx answers)
    (hserve : (ctx.serve o.variant).outcome answers = .ok cal) (hk : cal.Keeps answers t)
    {cursor : LunarDate} (hc : t.IsDay cursor.toLunarDay) (hyear : t.HasYear cursor.year)
    (hnext : o.months = [] → o.weekdays ≠ [] → o.skip = .forward → t.Has (cursor.year * 12)) :
    ∃ days : List LunarDay,
      (o.yearlyCandidates ctx cal cursor).outcome answers = .ok (days.map .ofDay) ∧
        ∀ d ∈ days, ∃ m, (1 ≤ m ∧ m ≤ 12) ∧ t.Offers o.skip cursor.year m d := by
  have hday : 1 ≤ cursor.day := hc.2.2.1
  unfold yearlyCandidates
  by_cases hmonths : o.months = []
  · rw [hmonths]
    simp only [List.isEmpty_nil, Bool.not_true, Bool.false_eq_true, if_false]
    by_cases hdays : (!o.monthDays.isEmpty || !o.monthDaysFromEnd.isEmpty) = true
    · obtain ⟨days, houtcome, hall⟩ :=
        exists_monthCandidates ho hserve hk hc.1 (hyear.has hc.1) hday
      simp only [hdays, if_true]
      rw [Calculation.outcome_bind_ok houtcome]
      exact exists_onWeekdays hk hyear hc.1 (hnext hmonths) hall
    · by_cases hyears : (!o.yearDays.isEmpty) = true
      · obtain ⟨days, houtcome, hall⟩ := Calculation.exists_outcome_filterMap_map
          fun offset (_ : offset ∈ o.yearDays) => exists_yearDay hk hyear offset
        simp only [hdays, hyears, if_true, Bool.false_eq_true, if_false]
        rw [Calculation.outcome_bind_ok houtcome]
        exact exists_onWeekdays hk hyear hc.1 (hnext hmonths) fun d hd => Or.inl (hall d hd)
      · have hcursor : ∀ d ∈ [cursor.toLunarDay], t.Offers o.skip cursor.year cursor.month d :=
          fun d hd => Or.inl (List.mem_singleton.1 hd ▸ hc)
        simp only [hdays, hyears, Bool.false_eq_true, if_false]
        exact exists_onWeekdays hk hyear hc.1 (hnext hmonths) hcursor
  · rw [if_pos (by simpa using hmonths)]
    exact exists_monthsCandidates ho hserve hk hyear hday ho.months

/-! ### Weeks and days -/

/-- The days of a week that fall on the rule's weekdays, when the table has them. -/
theorem exists_weekDates {cursor : LunarDate}
    (hserve : (ctx.serve cursor.variant).outcome answers = .ok cal) (hk : cal.Keeps answers t)
    (hbuilt : cursor.Built ctx answers) (hc : t.IsDay cursor.toLunarDay)
    (hweek : ∀ i : Int, 0 ≤ i → i < 7 →
      o.weekdayNumbers.contains ((t.numberOf cursor.toLunarDay + i) % 7) = true →
        t.HasNumber (t.numberOf cursor.toLunarDay + i)) :
    ∃ dates : List LunarDate,
      (o.weekDates ctx cursor (t.numberOf cursor.toLunarDay % 7)).outcome answers = .ok dates ∧
        ∀ e ∈ dates, t.IsDay e.toLunarDay := by
  have hdate : ∀ i ∈ ([0, 1, 2, 3, 4, 5, 6] : List Int), ∃ found : Option LunarDate,
      (if o.weekdayNumbers.contains ((t.numberOf cursor.toLunarDay % 7 + i) % 7) then
        some <$> cursor.addDays ctx (.whole i) else pure none : Calculation _).outcome answers =
          .ok (found.map id) ∧ ∀ e ∈ found, t.IsDay e.toLunarDay := by
    intro i hi
    simp only [List.mem_cons, List.not_mem_nil, or_false] at hi
    rw [Int.emod_add_emod]
    split
    · next hwanted =>
      obtain ⟨e, he, -, hshift⟩ := LunarDate.outcome_addDays_of_hasNumber hserve hk hbuilt hc
        (hweek i (by omega) (by omega) hwanted)
      refine ⟨some (cursor.onDay e), ?_, fun found hfound => ?_⟩
      · rw [← bind_pure_comp, Calculation.outcome_bind_ok hshift]
        rfl
      · rw [← Option.some.inj hfound]
        exact he
    · exact ⟨none, rfl, fun e he => by cases he⟩
  obtain ⟨dates, hdates, hall⟩ := Calculation.exists_outcome_filterMap_map hdate
  rw [List.map_id] at hdates
  exact ⟨dates, hdates, hall⟩

theorem exists_weeklyCandidates {cursor : LunarDate}
    (hserve : (ctx.serve cursor.variant).outcome answers = .ok cal) (hk : cal.Keeps answers t)
    (hbuilt : cursor.Built ctx answers) (hc : t.IsDay cursor.toLunarDay)
    (hweek : ∀ i : Int, 0 ≤ i → i < 7 →
      o.weekdayNumbers.contains ((t.numberOf cursor.toLunarDay + i) % 7) = true →
        t.HasNumber (t.numberOf cursor.toLunarDay + i)) :
    ∃ days : List LunarDay,
      (o.weeklyCandidates ctx cursor).outcome answers = .ok (days.map .ofDay) ∧
        ∀ d ∈ days, t.IsDay d := by
  have hfinish : ∀ dates : List LunarDate, (∀ e ∈ dates, t.IsDay e.toLunarDay) →
      ∃ days : List LunarDay,
        ((dates.filter fun e => o.allowsMonth e.month).map fun e => Candidate.ofDay e.toLunarDay) =
          days.map .ofDay ∧ ∀ d ∈ days, t.IsDay d := by
    intro dates hall
    refine ⟨(dates.filter fun e => o.allowsMonth e.month).map LunarDate.toLunarDay, ?_, ?_⟩
    · rw [List.map_map]
      rfl
    · intro d hd
      obtain ⟨e, he, rfl⟩ := List.mem_map.1 hd
      exact hall e (List.mem_filter.1 he).1
  unfold weeklyCandidates
  by_cases hweekdays : o.weekdays = []
  · rw [hweekdays]
    obtain ⟨days, hdays, hall⟩ := hfinish [cursor] fun e he => List.mem_singleton.1 he ▸ hc
    exact ⟨days, congrArg Except.ok hdays, hall⟩
  · rw [if_neg (by simpa using hweekdays)]
    obtain ⟨dates, hdates, hall⟩ := exists_weekDates hserve hk hbuilt hc hweek
    obtain ⟨days, hdays, hall'⟩ := hfinish dates hall
    rw [Calculation.outcome_bind_ok (LunarDate.outcome_weekday_of_isDay hserve hk hc),
      Calculation.outcome_bind_ok hdates]
    exact ⟨days, congrArg Except.ok hdays, hall'⟩

theorem exists_dailyCandidates {cursor : LunarDate}
    (hserve : (ctx.serve cursor.variant).outcome answers = .ok cal) (hk : cal.Keeps answers t)
    (hc : t.IsDay cursor.toLunarDay) :
    ∃ days : List LunarDay,
      (o.dailyCandidates ctx cursor).outcome answers = .ok (days.map .ofDay) := by
  have hnone : ∃ days : List LunarDay,
      (pure [] : Calculation (List Candidate)).outcome answers = .ok (days.map .ofDay) := ⟨[], rfl⟩
  have hweekday : ∃ days : List LunarDay, (if !o.weekdays.isEmpty then do
        let weekday ← cursor.weekday ctx
        if !o.weekdayNumbers.contains weekday then return [] else
          return [.ofDay cursor.toLunarDay]
      else return [.ofDay cursor.toLunarDay] : Calculation (List Candidate)).outcome answers =
      .ok (days.map .ofDay) := by
    split
    · rw [Calculation.outcome_bind_ok (LunarDate.outcome_weekday_of_isDay hserve hk hc)]
      split
      · exact hnone
      · exact ⟨[cursor.toLunarDay], rfl⟩
    · exact ⟨[cursor.toLunarDay], rfl⟩
  unfold dailyCandidates
  by_cases hmonth : (!o.allowsMonth cursor.month) = true
  · rw [if_pos hmonth]
    exact hnone
  · rw [if_neg hmonth]
    by_cases hdays : (!o.monthDays.isEmpty || !o.monthDaysFromEnd.isEmpty) = true
    · simp only [hdays, if_true]
      rw [Calculation.outcome_bind_ok (LunarDate.outcome_daysInMonth_of_isDay hserve hk hc),
        Calculation.outcome_bind_ok
          ((Calculation.outcome_liftM _).trans (allowsMonthDay_whole _ _))]
      split
      · exact hnone
      · exact hweekday
    · simp only [hdays, Bool.false_eq_true, if_false]
      exact hweekday

/-! ### Periods -/

/-- The candidates of a period with room in the table. -/
theorem exists_candidates (ho : o.Normalized ctx answers)
    (hserve : (ctx.serve o.variant).outcome answers = .ok cal) (hk : cal.Keeps answers t)
    {cursor : LunarDate} (hbuilt : cursor.Built ctx answers) (hv : cursor.variant = o.variant)
    (hc : t.IsDay cursor.toLunarDay) (hroom : o.HasRoom t cursor.toLunarDay) :
    ∃ days : List LunarDay,
      (o.candidates ctx cal cursor).outcome answers = .ok ((LunarDay.sorted days).map .ofDay) ∧
        ∀ d ∈ days, t.Reaches d := by
  have hserve' := hv.symm ▸ hserve
  -- whatever the frequency, the candidates are sorted in the end
  have hfinish : ∀ {c : Calculation (List Candidate)} {days : List LunarDay},
      c.outcome answers = .ok (days.map .ofDay) →
      (c >>= fun found => pure (Candidate.sorted found)).outcome answers =
        .ok ((LunarDay.sorted days).map .ofDay) := by
    intro c days hdays
    rw [Calculation.outcome_bind_ok hdays, Candidate.sorted_ofDay]
    rfl
  unfold HasRoom at hroom
  unfold candidates
  cases hfrequency : o.frequency with
  | yearly =>
    simp only [hfrequency] at hroom ⊢
    obtain ⟨days, hdays, hall⟩ := exists_yearlyCandidates ho hserve hk hc hroom.1 hroom.2
    refine ⟨days, hfinish hdays, fun d hd => ?_⟩
    obtain ⟨m, hm, hoffers⟩ := hall d hd
    exact hoffers.reaches hm (hroom.1.has hm)
  | monthly =>
    by_cases hmonth : o.allowsMonth cursor.month = true
    · obtain ⟨days, hdays, hall⟩ := exists_monthCandidates ho hserve hk hc.1 hc.2.1 hc.2.2.1
      refine ⟨days, hfinish ?_, fun d hd => (hall d hd).reaches hc.1 hc.2.1⟩
      rw [monthlyCandidates, if_pos hmonth]
      exact hdays
    · refine ⟨[], hfinish ?_, fun d hd => absurd hd List.not_mem_nil⟩
      rw [monthlyCandidates, if_neg hmonth]
      rfl
  | weekly =>
    simp only [hfrequency] at hroom ⊢
    obtain ⟨days, hdays, hall⟩ := exists_weeklyCandidates hserve' hk hbuilt hc hroom
    exact ⟨days, hfinish hdays, fun d hd => Or.inl (hall d hd)⟩
  | daily =>
    obtain ⟨days, hdays⟩ := exists_dailyCandidates hserve' hk hc
    refine ⟨days, hfinish hdays, fun d hd => ?_⟩
    have hplace := eq_of_mem_dailyCandidates hdays _ (List.mem_map_of_mem hd)
    exact Or.inl (Candidate.ofDay_injective hplace ▸ hc)
  | hourly | minutely | secondly =>
    exact ⟨[cursor.toLunarDay], hfinish rfl, fun d hd => Or.inl (List.mem_singleton.1 hd ▸ hc)⟩

/-- **A period with room in the table comes to days, in increasing order.** -/
theorem exists_periodDays (ho : o.Normalized ctx answers)
    (hserve : (ctx.serve o.variant).outcome answers = .ok cal) (hk : cal.Keeps answers t)
    {cursor : LunarDate} (hbuilt : cursor.Built ctx answers) (hv : cursor.variant = o.variant)
    (hc : t.IsDay cursor.toLunarDay) (hroom : o.HasRoom t cursor.toLunarDay) :
    ∃ days : List LunarDay,
      (o.periodDays ctx cal cursor).outcome answers = .ok (days.map .ofDay) ∧
        days.Pairwise (· < ·) ∧ ∀ d ∈ days, t.Reaches d := by
  obtain ⟨days, hdays, hall⟩ := exists_candidates ho hserve hk hbuilt hv hc hroom
  rw [periodDays, Calculation.outcome_bind_ok hdays]
  split
  · exact ⟨_, rfl, LunarDay.pairwise_sorted _, fun d hd => hall d (LunarDay.mem_sorted.1 hd)⟩
  · refine ⟨pickDays (LunarDay.sorted days) o.positions, ?_, LunarDay.pairwise_sorted _, ?_⟩
    · rw [pickPositions_ofDay]
      rfl
    · exact fun d hd => hall d (LunarDay.mem_sorted.1 (mem_of_mem_pickDays hd))

end RuleOptions

end HijriRecurrence
